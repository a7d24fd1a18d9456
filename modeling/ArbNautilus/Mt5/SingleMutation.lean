import ArbNautilus.Mt5.Interleaving

namespace ArbNautilus.Mt5

open Base Journal Handler Coroutine

section Locked

variable {config : Config} {task : ℕ} {sent : List Sent} {since c : Client}
  {now : Client × List JournalEvent} {J : List JournalEvent} {α : Type}

/-- The task holds the state lock, and has since it last went on; so much was
sent. -/
structure Holding (task : ℕ) (sent : List Sent) (since : Client)
    (now : Client × List JournalEvent) : Prop where
  mine : ∀ other, other ≠ task → since.stateLock ≠ some other
  custody : Custody now.1 now.2
  stateLock : now.1.stateLock = some task
  sent : now.1.sent = sent

/-- Under the lock only the client's own errors leave an unclean state. -/
def Under (task : ℕ) (sent : List Sent) :
    Except Raised α → Client → Client × List JournalEvent → Prop :=
  either (fun _ since now => Holding task sent since now ∧ Clean now.1)
    fun e since now => Holding task sent since now ∧ (e.isLocal = true ∨ Clean now.1)

theorem Holding.stays {d : Client} (h : Holding task sent since now) (stays : Stays now.2 now.1 d) :
    Holding task sent since (d, now.2) :=
  ⟨h.mine, stays.custody, stays.stateLock.trans h.stateLock, stays.sent.trans h.sent⟩

theorem Holding.guarantee (config : Config) (h : Holding task sent since now) (d : Client) :
    (team config).guarantee task since d :=
  fun other apart lock => absurd lock (h.mine other apart)

theorem holding_wait {wait : Wait} {k : Reply wait → Task α}
    {post : Except Raised α → Client → Client × List JournalEvent → Prop}
    (h : Holding task sent since now) (clean : Clean now.1)
    (failed : ∀ e (later : Client × List JournalEvent), Holding task sent later.1 later →
      Clean later.1 → post (.error e) later.1 later)
    (goes : ∀ (later : Client × List JournalEvent) (reply : Reply wait),
      Holding task sent later.1 later → Clean later.1 → answered wait later (.ok reply) = true →
      (k reply).Safe ((team config).discipline task) post later.1 later) :
    (ask wait >>= k).Safe ((team config).discipline task) post since now := by
  have kept {later : Client × List JournalEvent}
      (relied : (team config).rely task now later) (held : (team config).inv later) :
      Holding task sent later.1 later := by
    obtain ⟨lock, same⟩ := relied.2 h.stateLock
    refine ⟨fun other apart locked => ?_, held.1, lock, same.trans h.sent⟩
    rw [lock] at locked
    exact apart (Option.some.inj locked).symm
  refine safe_ask_bind k ⟨⟨h.custody, clean⟩, h.guarantee config _⟩ fun later relied held =>
    ⟨?_, ?_⟩
  · exact fun e _ => failed e later (kept relied held) held.2
  · exact fun reply admitted => goes later reply (kept relied held) held.2 admitted

/-- A call under the lock that changes nothing. -/
theorem holding_perform {m : Call α} {β : Type} {k : α → Task β}
    {post : Except Raised β → Client → Client × List JournalEvent → Prop}
    (still : wp m (fun _ d => d = now.1) (fun d => d = now.1) now.1) (only : Local m)
    (failed : ∀ e, e.isLocal = true → post (.error e) since now)
    (goes : ∀ a, (k a).Safe ((team config).discipline task) post since now) :
    (perform m >>= k).Safe ((team config).discipline task) post since now := by
  rw [safe_bind]
  refine safe_perform_of_raises still only ?_ ?_
  · rintro a d rfl
    exact goes a
  · rintro e d kind rfl
    exact failed e kind

theorem local_currentIdentity : Local currentIdentity := by
  intro c e raised
  unfold currentIdentity Client.requireIdentity at raised
  split at raised <;> cases raised
  rfl

theorem currentIdentity_still (c : Client) :
    wp currentIdentity (fun _ d => d = c) (fun d => d = c) c := by
  simp only [currentIdentity, wp]
  cases c.requireIdentity <;> rfl

/-- What holds the next mutation back is up to date. -/
theorem refreshed_stays {d : Client} (h : Stays J c d) :
    Stays J c d.refreshHold ∧ Clean d.refreshHold :=
  ⟨h.trans ⟨h.custody.refreshHold, rfl, rfl⟩, clean_refreshHold d⟩

theorem failClosed_stays {d : Client} (h : Stays J c d) :
    Stays J c { d with running := false }.unbound ∧ Clean { d with running := false }.unbound := by
  have stopped : Stays J c { d with running := false } :=
    h.trans (.unmoved h.custody ⟨rfl, rfl, rfl, rfl, rfl, rfl, rfl, rfl, rfl⟩ h.custody.admitted)
  obtain ⟨left, clean⟩ := unbound_stays stopped.custody
  exact ⟨stopped.trans left, clean⟩

theorem clearTransient_stays {d : Client} (h : Stays J c d) :
    wp clearTransientRequestTimeout (fun _ e => Stays J c e ∧ Clean e) (fun _ => False) d := by
  refine refreshed_stays (h.trans (.unmoved h.custody ?_ h.custody.admitted))
  exact ⟨rfl, rfl, rfl, rfl, rfl, rfl, rfl, rfl, rfl⟩

theorem markTransient_stays {d : Client} (h : Stays J c d) (e : Raised) :
    wp (markTransientRequestTimeout e) (fun _ f => Stays J c f ∧ Clean f) (fun _ => False) d := by
  refine refreshed_stays (h.trans (.unmoved h.custody ?_ h.custody.admitted))
  exact ⟨rfl, rfl, rfl, rfl, rfl, rfl, rfl, rfl, rfl⟩

theorem verifyUnchangedJournalTail_under {identity : Identity} {cursor : Text}
    (h : Holding task sent since now) (clean : Clean now.1) :
    (verifyUnchangedJournalTail config identity cursor).Safe ((team config).discipline task)
      (Under task sent) since now := by
  refine holding_wait h clean (fun _ _ h clean => ⟨h, .inr clean⟩)
    fun now (page : EventPage) h clean _ => ?_
  rw [safe_check]
  exact either_of (fun _ _ => ⟨h, clean⟩) fun _ _ => ⟨h, .inr clean⟩

theorem refreshFailed_stays (h : Custody c J) (e : Raised) :
    wp (refreshFailed config e) (fun _ d => Stays J c d ∧ Clean d) (fun _ => False) c := by
  have marked (e : Raised) : Stays J c ((markSnapshotUnavailable config e).after c) ∧
      Clean ((markSnapshotUnavailable config e).after c) := by
    have noted : Stays J c { c with
        snapshotRefreshHealthy := false
        lastFailure := some e.describe } :=
      .unmoved h ⟨rfl, rfl, rfl, rfl, rfl, rfl, rfl, rfl, rfl⟩ h.admitted
    obtain ⟨stays, clean⟩ := refreshed_stays noted
    exact ⟨stays.trans (.unmoved stays.custody ⟨rfl, rfl, rfl, rfl, rfl, rfl, rfl, rfl, rfl⟩
      stays.custody.admitted), clean⟩
  have closed (e : Raised) := failClosed_stays
    (Stays.unmoved h (fail_unmoved c e) h.admitted : Stays J c ((fail e).after c))
  unfold refreshFailed
  split
  · exact marked _
  · rw [wp_ite]
    exact ⟨fun _ => marked _, fun _ => closed _⟩
  · exact closed _

theorem refreshed_install (h : Custody c J) (snapshot : Snapshot) :
    wp (do
      installSnapshot config snapshot
      clearTransientRequestTimeout
      scheduleSnapshotRefresh config) (fun _ d => Stays J c d ∧ Clean d)
      (fun d => Stays J c d) c := by
  simp only [wp_bind, scheduleSnapshotRefresh, wp_change]
  refine wp_mono (installSnapshot_stays h snapshot) ?_ fun _ stays => stays
  rintro - d installed
  refine wp_mono (clearTransient_stays installed) ?_ fun _ never => never.elim
  rintro - e ⟨stays, clean⟩
  exact ⟨stays.trans (.unmoved stays.custody ⟨rfl, rfl, rfl, rfl, rfl, rfl, rfl, rfl, rfl⟩
    stays.custody.admitted), clean⟩

theorem refreshSnapshotIfDue_holds {force : Bool} (h : Holding task sent since now)
    (clean : Clean now.1) : (refreshSnapshotIfDue config force).Safe ((team config).discipline task)
      (fun _ since now => Holding task sent since now ∧ Clean now.1) since now := by
  unfold refreshSnapshotIfDue
  rw [safe_bind, safe_look, either_ok, safe_ite]
  refine ⟨fun _ => ?_, fun _ => ⟨h, clean⟩⟩
  -- Whichever wait or check fails, the handler leaves a state with a reason to hold.
  have handled (e : Raised) {since : Client} {now : Client × List JournalEvent}
      (h : Holding task sent since now) :
      (perform (refreshFailed config e) >>= fun _ => Coroutine.raise e : Task Unit).Safe
        ((team config).discipline task)
        (fun _ since now => Holding task sent since now ∧ Clean now.1) since now := by
    rw [safe_bind]
    refine safe_perform_of_wp (refreshFailed_stays h.custody e) ?_ fun _ _ never => never.elim
    exact fun _ _ kept => ⟨h.stays kept.1, kept.2⟩
  rw [safe_tryCatch]
  refine holding_perform (currentIdentity_still _) local_currentIdentity (fun e _ => handled e h)
    fun identity => ?_
  refine holding_wait h clean (fun e _ h _ => handled e h)
    fun now (snapshot : Snapshot) h clean _ => ?_
  refine (safe_bind _ _).2 (either_of (fun _ _ => ?_) fun e _ => handled e h)
  rw [safe_bind, safe_look, either_ok, safe_bind]
  refine (verifyUnchangedJournalTail_under h clean).mono ?_
  rintro (e | _) since now held
  · exact handled e held.1
  obtain ⟨h, clean⟩ := held
  refine safe_perform_of_wp (D := (team config).discipline task)
    (refreshed_install h.custody snapshot) ?_ ?_
  · exact fun _ _ kept => ⟨h.stays kept.1, kept.2⟩
  · exact fun e _ kept => handled e (h.stays kept)

theorem consumePages_under {expected : Option JournalEvent} {identity : Identity} {pages : ℕ}
    {target : Option ℕ} (h : Holding task sent since now) (clean : Clean now.1) :
    (consumePages config expected identity pages target).Safe ((team config).discipline task)
      (Under task sent) since now := by
  induction pages generalizing since now target with
  | zero => exact ⟨h, .inl rfl⟩
  | succ pages ih =>
    have reached {since : Client} {now : Client × List JournalEvent}
      (h : Holding task sent since now)
        (clean : Clean now.1) : (reachedTarget expected).Safe ((team config).discipline task)
          (Under task sent) since now := by
      unfold reachedTarget
      rw [safe_ite]
      exact ⟨fun _ => ⟨h, .inl rfl⟩, fun _ => ⟨h, clean⟩⟩
    unfold consumePages
    rw [safe_bind, safe_look, either_ok, safe_ite]
    refine ⟨fun _ => reached h clean, fun _ => ?_⟩
    refine holding_wait h clean (fun _ _ h clean => ⟨h, .inr clean⟩) ?_
    intro now (page : EventPage) h clean answer
    refine (safe_check_bind _ _).2 ⟨fun _ _ => ⟨h, .inr clean⟩, fun _ _ => ?_⟩
    refine (safe_check_bind _ _).2 ⟨fun _ _ => ⟨h, .inr clean⟩, fun last _ => ?_⟩
    simp only [answered, Bool.and_eq_true, decide_eq_true_eq] at answer
    have members : ∀ event ∈ page.events, event ∈ now.2 := fun event member =>
      List.mem_of_mem_drop (answer.1.subset member)
    rw [safe_bind]
    refine safe_perform_of_raises (applyEvents_stays h.custody clean members) local_applyEvents ?_
      ?_
    · rintro found d ⟨stays, clean⟩
      have h := h.stays stays
      rw [either_ok, safe_ite]
      refine ⟨fun _ => ⟨h, clean⟩, fun _ => ?_⟩
      rw [safe_bind, safe_look, either_ok, safe_ite, safe_ite]
      exact ⟨fun _ => reached h clean, fun _ => ⟨fun _ => ⟨h, .inl rfl⟩, fun _ => ih h clean⟩⟩
    · exact fun e d kind stays => ⟨h.stays stays, .inl kind⟩

theorem consumeEventPages_under {expected : Option JournalEvent} (h : Holding task sent since now)
    (clean : Clean now.1) : (consumeEventPages config expected).Safe ((team config).discipline task)
      (Under task sent) since now := by
  refine holding_perform (currentIdentity_still _) local_currentIdentity
    (fun _ kind => ⟨h, .inl kind⟩) fun identity => ?_
  unfold withPaginationTimeout
  rw [safe_tryCatch]
  refine (consumePages_under h clean).mono ?_
  rintro (e | _) since now held
  · cases e
    case timeoutError => exact ⟨held.1, .inl rfl⟩
    all_goals exact held
  · exact held

/-- A poll that timed out goes on; an error of the client's own ends it. -/
theorem pollLocked_under (h : Holding task sent since now) (clean : Clean now.1) :
    (pollLocked config).Safe ((team config).discipline task) (Under task sent) since now := by
  have refreshed : (do
      consumeEventPages config none
      refreshSnapshotIfDue config false
      pure true : Task Bool).Safe ((team config).discipline task) (Under task sent) since now := by
    rw [safe_bind]
    refine (consumeEventPages_under h clean).mono ?_
    rintro (e | _) since now held
    · exact held
    rw [either_ok, safe_bind]
    refine (refreshSnapshotIfDue_holds held.1 held.2).mono ?_
    rintro (e | _) since now held
    · exact ⟨held.1, .inr held.2⟩
    · exact held
  unfold pollLocked
  rw [safe_bind, safe_tryCatch]
  refine refreshed.mono ?_
  rintro (e | whole) since now held
  · obtain ⟨h, kind⟩ := held
    cases e with
    | requestTimeout message =>
      rw [either_error, safe_bind]
      refine safe_perform_of_wp (markTransient_stays (.refl h.custody) _) ?_ fun _ _ never =>
        never.elim
      exact fun _ d kept => ⟨h.stays kept.1, kept.2⟩
    | remoteError code message =>
      dsimp only [either_error]
      rw [safe_ite]
      exact ⟨fun _ => ⟨h, kind⟩, fun _ => ⟨h, kind.resolve_left nofun⟩⟩
    | executionError | transportError | timeoutError | cancelledError | other => exact ⟨h, kind⟩
  · obtain ⟨h, clean⟩ := held
    rw [either_ok, either_ok, safe_ite]
    refine ⟨fun _ => ?_, fun _ => ⟨h, clean⟩⟩
    refine safe_perform_of_wp (D := (team config).discipline task)
      (clearTransient_stays (.refl h.custody)) ?_ fun _ _ never => never.elim
    exact fun _ _ kept => ⟨h.stays kept.1, kept.2⟩

theorem pollFailed_stays (h : Custody c J) (e : Raised) :
    wp (pollFailed e) (fun _ d => Stays J c d ∧ Clean d) (fun _ => False) c := by
  have failed : Stays J c ((fail e).after c) := .unmoved h (fail_unmoved c e) h.admitted
  simp only [pollFailed, wp_bind, fail, wp_change, wp_look, wp_ite, wp_pure]
  refine ⟨fun _ => failClosed_stays failed, fun unbound => ⟨failed, clean_of_held _ fun free => ?_⟩⟩
  exact unbound (Option.isSome_iff_ne_none.2 (h.admitted free))

/-- What a task owes when it is over, or waits without the lock. -/
def Kept (config : Config) (task : ℕ) (since : Client) (now : Client × List JournalEvent) : Prop :=
  (team config).inv now ∧ (team config).guarantee task since now.1

theorem Kept.of_watching (h : Watching since now) : Kept config task since now := by
  obtain ⟨rfl, inv⟩ := h
  exact ⟨inv, fun _ _ lock => ⟨lock, rfl⟩⟩

theorem Kept.stays {d : Client} (owed : (team config).guarantee task since now.1)
    (stays : Stays now.2 now.1 d ∧ Clean d) : Kept config task since (d, now.2) := by
  refine ⟨⟨stays.1.custody, stays.2⟩, fun other apart lock => ?_⟩
  obtain ⟨locked, same⟩ := owed other apart lock
  exact ⟨stays.1.stateLock.trans locked, stays.1.sent.trans same⟩

/-- The lock is held from one suspension to another, or not at all. -/
theorem withStateLock_keeps {body : Task α}
    {post : Except Raised α → Client → Client × List JournalEvent → Prop}
    (h : Kept config task since now)
    (failed : ∀ e (later : Client × List JournalEvent), Watching later.1 later →
      post (.error e) later.1 later)
    (inside : ∀ (since : Client) (now : Client × List JournalEvent),
      Holding task now.1.sent since now → Clean now.1 →
      body.Safe ((team config).discipline task) (fun result since now =>
        post result since ({ now.1 with stateLock := none }, now.2)) since now) :
    (withStateLock task body).Safe ((team config).discipline task) post since now := by
  refine safe_ask_bind _ h fun later _ held => ⟨fun e _ => failed e later ⟨rfl, held⟩, ?_⟩
  intro _ free
  have unlocked : later.1.stateLock = none := Option.isNone_iff_eq_none.1 free
  rw [safe_bind, safe_change, either_ok, safe_tryFinally]
  refine inside later.1 ({ later.1 with stateLock := some task }, later.2) ⟨?_, ?_, rfl, rfl⟩ held.2
  · intro other _ lock
    rw [unlocked] at lock
    cases lock
  · obtain ⟨h, -⟩ := held
    exact ⟨h.own, h.reserved, h.settled, h.single, h.pendingSent, h.sentOnce, h.sentSeen,
      h.sentKnown, h.outcomeOnce, h.outcomeSent, h.outcomeKnown, h.admitted, h.guarded⟩

/-- Releasing the lock keeps all a holder kept. -/
theorem Holding.release (h : Holding task sent since now) :
    Custody { now.1 with stateLock := none } now.2 := by
  obtain ⟨-, h, -, -⟩ := h
  exact ⟨h.own, h.reserved, h.settled, h.single, h.pendingSent, h.sentOnce, h.sentSeen, h.sentKnown,
    h.outcomeOnce, h.outcomeSent, h.outcomeKnown, h.admitted, h.guarded⟩

theorem pollOnce_keeps (h : Kept config task since now) :
    (pollOnce config task).Safe ((team config).discipline task) (either (fun _ => Kept config task)
      fun e since now => Custody now.1 now.2 ∧ (e.isLocal = true ∨ Clean now.1) ∧
        (team config).guarantee task since now.1) since now := by
  refine withStateLock_keeps h ?_ fun since now h clean => (pollLocked_under h clean).mono ?_
  · rintro e later ⟨-, custody, clean⟩
    exact ⟨custody, .inr clean, fun _ _ lock => ⟨lock, rfl⟩⟩
  · rintro (e | _) since now held
    · exact ⟨held.1.release, held.2, held.1.guarantee config _⟩
    · exact ⟨⟨held.1.release, held.2⟩, held.1.guarantee config _⟩

theorem pollEvents_keeps {turns : ℕ} (h : Kept config task since now) :
    (pollEvents config task turns).Safe ((team config).discipline task)
      (fun _ => Kept config task) since now := by
  induction turns generalizing since now with
  | zero => exact h
  | succ turns ih =>
    unfold pollEvents
    rw [safe_bind, safe_look, either_ok, safe_ite]
    refine ⟨fun _ => ?_, fun _ => h⟩
    refine safe_ask_bind _ h fun later _ held =>
      ⟨fun _ _ => .of_watching ⟨rfl, held⟩, fun _ _ => ?_⟩
    rw [safe_bind, safe_tryCatch, safe_bind]
    refine (pollOnce_keeps (.of_watching ⟨rfl, held⟩)).mono ?_
    rintro (e | _) since now held
    · obtain ⟨custody, kind, owed⟩ := held
      cases e with
      | cancelledError => exact ⟨⟨custody, kind.resolve_left nofun⟩, owed⟩
      | requestTimeout message =>
        rw [either_error, either_error, safe_bind]
        refine safe_perform_of_wp (markTransient_stays (.refl custody) _) ?_ fun _ _ never =>
          never.elim
        exact fun _ d stays => ih (.stays owed stays)
      | executionError | remoteError | transportError | timeoutError | other =>
        rw [either_error, either_error, safe_bind]
        refine safe_perform_of_wp (pollFailed_stays custody _) ?_ fun _ _ never => never.elim
        exact fun _ d stays => .stays owed stays
    · exact ih held

theorem deny_stays (h : Custody c J) (clean : Clean c) (order : Order) (reason : String) :
    wp (deny order reason) (fun _ d => Stays J c d ∧ Clean d) (fun _ => False) c :=
  ⟨.unmoved h (deny_unmoved c order reason) h.admitted, clean⟩

theorem prepareOpen_order {order : Order} {instrument : Instrument} {lots : ℚ} {planned : Bool}
    {pending : Pending} (prepared : c.prepareOpen order instrument lots planned = .ok pending) :
    pending.order = order := by
  simp only [Client.prepareOpen, bind_eq_ok, pure_eq_ok] at prepared
  obtain ⟨-, -, -, -, -, -, rfl⟩ := prepared
  rfl

theorem prepareClose_order {order : Order} {instrument : Instrument} {lots : ℚ} {identifier : Text}
    {planned : Bool} {expected : Option ℚ} {pending : Pending} (prepared :
      c.prepareClose config order instrument lots identifier planned expected = .ok pending) :
    pending.order = order := by
  simp only [Client.prepareClose, bind_eq_ok] at prepared
  obtain ⟨snapshot, -, prepared⟩ := prepared
  split at prepared
  · simp only [bind_eq_ok] at prepared
    obtain ⟨-, -, -, -, -, -, -, -, prepared⟩ := prepared
    split at prepared
    · simp only [bind_eq_ok, pure_eq_ok] at prepared
      obtain ⟨-, -, -, -, -, -, rfl⟩ := prepared
      rfl
    · cases prepared
      rfl
  · cases prepared

theorem prepare_order {order : Order} {positionId : Option Text} {planned : Bool}
    {expected : Option ℚ} {pending : Pending}
    (prepared : c.prepare config order positionId planned expected = .ok pending) :
    pending.order = order := by
  simp only [Client.prepare, bind_eq_ok] at prepared
  obtain ⟨-, -, instrument, -, lots, -, prepared⟩ := prepared
  split at prepared
  · exact prepareOpen_order prepared
  · exact prepareClose_order prepared

/-- The client once a submission is prepared. -/
def Client.admitting (c : Client) (pending : Pending) : Client :=
  { c with
    native := c.native ++ [.submitted pending.order c.surroundings.timestampNs]
    pending := c.pending.set pending.order.clientOrderId pending
    seenRequestIds := pending.order.clientOrderId :: c.seenRequestIds }

/-- The client as it sends the submission's mutation. -/
def Client.sending (c : Client) (pending : Pending) (binding : Binding) : Client :=
  { c with sent := c.sent ++ [⟨pending.mutation binding, c.pending.keys, c.projection⟩] }

theorem sending_custody {pending : Pending} {binding : Binding} (h : Custody c J) (clean : Clean c)
    (free : c.executionHoldReason = none) (idle : c.pending.entries = [])
    (fresh : pending.order.clientOrderId ∉ sentIds c) :
    Custody ((c.admitting pending).sending pending binding) J ∧
      Clean ((c.admitting pending).sending pending binding) := by
  have unsent : c.pending.keys = [] := by rw [Dict.keys, idle]; rfl
  have ids : sentIds ((c.admitting pending).sending pending binding) =
      sentIds c ++ [pending.order.clientOrderId] :=
    List.map_append
  have absent : c.pending.get? pending.order.clientOrderId = none := by
    rw [Dict.get?_eq_none_iff, unsent]
    simp
  have keys : ((c.admitting pending).sending pending binding).pending.keys =
      [pending.order.clientOrderId] := by
    have added := Dict.keys_set_of_get?_none absent pending
    rwa [unsent] at added
  have out : outcomes ((c.admitting pending).sending pending binding).native =
      outcomes c.native := by
    simp [Client.sending, Client.admitting, outcomes, NativeEvent.outcome]
  refine ⟨⟨?_, h.reserved, h.settled, ?_, ?_, ?_, ?_, ?_, ?_, ?_, ?_, h.admitted, ?_⟩, ?_⟩
  · intro k p found
    change (c.pending.set pending.order.clientOrderId pending).get? k = some p at found
    rw [Dict.get?_set] at found
    split at found
    · rename_i same
      cases found
      exact same
    · exact h.own found
  · simp [keys]
  · rw [keys, ids]
    simp
  · rw [ids, List.nodup_append]
    refine ⟨h.sentOnce, List.nodup_singleton _, ?_⟩
    rintro a old b new rfl
    exact fresh (List.mem_singleton.1 new ▸ old)
  · intro k member
    rw [ids, List.mem_append, List.mem_singleton] at member
    rcases member with old | rfl
    · exact List.mem_cons_of_mem _ (h.sentSeen k old)
    · exact List.mem_cons_self
  · intro k member
    rw [ids, List.mem_append, List.mem_singleton] at member
    rcases member with old | rfl
    · exact .inr ((h.sentKnown k old).resolve_left (by simp [unsent]))
    · exact .inl (by simp [keys])
  · rw [out]
    exact h.outcomeOnce
  · intro k member
    rw [out] at member
    have sent := (h.outcomeSent k member).1
    rw [ids, keys, List.mem_singleton]
    exact ⟨List.mem_append_left _ sent, fun same => fresh (same ▸ sent)⟩
  · rw [out]
    exact h.outcomeKnown
  · intro s member
    rcases List.mem_append.1 member with old | new
    · exact h.guarded s old
    · obtain rfl := List.mem_singleton.1 new
      exact ⟨keys, JournalProjection.settled_of_holdReason (clean free unsent)⟩
  · exact fun _ waits => by rw [keys] at waits; cases waits

theorem submissionFailed_stays (h : Custody c J) (id : Text) (e : Raised) :
    wp (submissionFailed id e) (fun _ d => Stays J c d ∧ Clean d) (fun _ => False) c := by
  have marked := Stays.setUnknown h id
  have failed : Stays J c ((fail e).after (c.setUnknown id)) :=
    marked.trans (.unmoved marked.custody (fail_unmoved _ e) marked.custody.admitted)
  unfold submissionFailed
  simp only [wp_bind, wp_change, fail, refreshExecutionHold]
  split
  · refine refreshed_stays (failed.trans (.unmoved failed.custody ?_ failed.custody.admitted))
    exact ⟨rfl, rfl, rfl, rfl, rfl, rfl, rfl, rfl, rfl⟩
  · exact refreshed_stays failed

theorem sendMutation_under {pending : Pending} {identity : Identity}
    (bound : now.1.identity = some identity)
    (h : Holding task sent since (now.1.sending pending identity.binding, now.2))
    (clean : Clean (now.1.sending pending identity.binding)) :
    (sendMutation config pending).Safe ((team config).discipline task) (Under task sent) since
    now := by
  have known : currentIdentity now.1 = (.ok identity, now.1) := by
    simp [currentIdentity, Client.requireIdentity, bound]
  unfold sendMutation
  rw [safe_bind, safe_perform, known, either_ok, safe_bind, safe_change, either_ok]
  refine holding_wait h clean (fun _ _ h clean => ⟨h, .inr clean⟩) ?_
  intro now (data : SubmitData) h clean _
  refine holding_perform ?_ ?_ (fun _ kind => ⟨h, .inl kind⟩) fun _ => consumeEventPages_under h
    clean
  · rw [wp_bind]
    refine wp_mono (currentIdentity_still now.1) ?_ fun _ same => same
    rintro identity d rfl
    simp only [wp_bind, wp_raiseWhen, wp_look]
    exact ⟨fun _ => trivial, fun _ => ⟨fun _ => trivial, fun _ => trivial⟩⟩
  · exact raises_bind local_currentIdentity fun _ => raises_bind (raises_raiseWhen rfl) fun _ =>
      raises_bind (raises_look _) fun _ => raises_raiseWhen rfl

/-- A prepared submission is sent once, whatever becomes of its outcome. -/
theorem submitPrepared_holds {pending : Pending} (h : Holding task sent since now)
    (clean : Clean now.1) (free : now.1.executionHoldReason = none)
    (idle : now.1.pending.entries = []) (fresh : pending.order.clientOrderId ∉ sentIds now.1) :
    (submitPrepared config pending).Safe ((team config).discipline task)
      (fun _ since now => ∃ sent, Holding task sent since now ∧ Clean now.1) since now := by
  obtain ⟨identity, bound⟩ := Option.ne_none_iff_exists'.1 (h.custody.admitted free)
  obtain ⟨custody, clean⟩ := sending_custody h.custody clean free idle fresh
  have sending : Holding task ((now.1.admitting pending).sending pending identity.binding).sent
    since
      ((now.1.admitting pending).sending pending identity.binding, now.2) :=
    ⟨h.mine, custody, h.stateLock, rfl⟩
  have sent :=
    @sendMutation_under config task _ since (now.1.admitting pending, now.2) pending identity
    bound sending clean
  refine (safe_bind _ _).2 ((safe_tryCatch _ _).2 (sent.mono ?_))
  rintro (e | _) since now held
  · rw [either_error, safe_bind]
    refine safe_perform_of_wp (submissionFailed_stays held.1.custody _ e) ?_
      fun _ _ never => never.elim
    rintro _ d ⟨stays, clean⟩
    rw [either_ok, safe_ite]
    exact ⟨fun _ => ⟨_, held.1.stays stays, clean⟩, fun _ => ⟨_, held.1.stays stays, clean⟩⟩
  · exact ⟨_, held⟩

theorem denied_holds (h : Holding task sent since now) (clean : Clean now.1) (order : Order)
    (reason : String) :
    (perform (deny order reason) : Task Unit).Safe ((team config).discipline task)
      (fun _ since now => ∃ sent, Holding task sent since now ∧ Clean now.1) since now := by
  refine safe_perform_of_wp (deny_stays h.custody clean _ reason) ?_ fun _ _ never => never.elim
  exact fun _ _ kept => ⟨sent, h.stays kept.1, kept.2⟩

theorem submitAdmitted_holds {command : SubmitOrder} {planned : Bool} {expected : Option ℚ}
    (h : Holding task sent since now) (clean : Clean now.1)
    (fresh : command.order.clientOrderId ∉ sentIds now.1) :
    (submitAdmitted config command planned expected).Safe ((team config).discipline task)
      (fun _ since now => ∃ sent, Holding task sent since now ∧ Clean now.1) since now := by
  unfold submitAdmitted
  rw [safe_bind, safe_look, either_ok]
  dsimp only [id]
  cases free : now.1.executionHoldReason with
  | some reason => exact denied_holds h clean _ _
  | none =>
    dsimp only
    rw [safe_ite]
    refine ⟨fun _ => denied_holds h clean _ _, fun idle => ?_⟩
    cases prepared : now.1.prepare config command.order command.positionId planned expected with
    | error e =>
      cases e with
      | executionError message => exact denied_holds h clean _ _
      | requestTimeout | remoteError | transportError | timeoutError | cancelledError | other =>
        exact ⟨sent, h, clean⟩
    | ok pending =>
      have same := prepare_order prepared
      exact submitPrepared_holds h clean free (not_not.1 idle) (same ▸ fresh)

theorem refreshDenied_stays (h : Custody c J) (clean : Clean c) (order : Order) (e : Raised) :
    wp (refreshDenied order e) (fun _ d => Stays J c d ∧ Clean d) (fun _ => False) c := by
  unfold refreshDenied
  split
  · rw [wp_bind]
    refine wp_mono (markTransient_stays (.refl h) _) ?_ fun _ never => never
    rintro - d ⟨stays, clean⟩
    refine wp_mono (deny_stays stays.custody clean order _) ?_ fun _ never => never
    exact fun _ _ kept => ⟨stays.trans kept.1, kept.2⟩
  · exact deny_stays h clean order _

theorem submitLocked_holds {command : SubmitOrder} (h : Holding task sent since now)
    (clean : Clean now.1) : (submitLocked config command).Safe ((team config).discipline task)
      (fun _ since now => ∃ sent, Holding task sent since now ∧ Clean now.1) since now := by
  unfold submitLocked
  dsimp only
  rw [safe_bind, safe_look, either_ok, safe_ite]
  refine ⟨fun _ => denied_holds h clean _ _, fun unseen => ?_⟩
  have fresh : command.order.clientOrderId ∉ sent.map (·.mutation.clientRequestId) := by
    rw [← h.sent]
    exact fun known => unseen (decide_eq_true (h.custody.sentSeen _ known))
  cases hedgePlanPrecondition command with
  | error e => exact denied_holds h clean _ _
  | ok plan =>
    obtain ⟨planned, expected⟩ := plan
    dsimp only
    rw [safe_bind, safe_tryCatch, safe_bind]
    refine (refreshSnapshotIfDue_holds h clean).mono ?_
    rintro (e | _) since now ⟨h, clean⟩
    · cases e with
      | cancelledError => exact ⟨sent, h, clean⟩
      | executionError | requestTimeout | remoteError | transportError | timeoutError | other =>
        rw [either_error, either_error, safe_bind]
        refine safe_perform_of_wp (refreshDenied_stays h.custody clean _ _) ?_
          fun _ _ never => never.elim
        exact fun _ _ kept => ⟨sent, h.stays kept.1, kept.2⟩
    · rw [either_ok, safe_pure, either_ok, either_ok, safe_ite]
      refine ⟨fun _ => submitAdmitted_holds h clean ?_, fun never => absurd rfl never⟩
      rw [sentIds, h.sent]
      exact fresh

theorem submitOrder_keeps {command : SubmitOrder} (h : Kept config task since now) :
    (submitOrder config task command).Safe ((team config).discipline task)
      (fun _ => Kept config task) since now := by
  have denied (reason : String) : (perform (deny command.order reason) : Task Unit).Safe
      ((team config).discipline task) (fun _ => Kept config task) since now := by
    refine safe_perform_of_wp (deny_stays h.1.1 h.1.2 _ reason) ?_ fun _ _ never => never.elim
    exact fun _ _ kept => .stays h.2 kept
  unfold submitOrder
  dsimp only
  rw [safe_ite, safe_ite, safe_ite]
  refine ⟨fun _ => denied _,
    fun _ => ⟨fun _ => denied _, fun _ => ⟨fun _ => denied _, fun _ => ?_⟩⟩⟩
  refine withStateLock_keeps h (fun _ _ h => .of_watching h) fun since now h clean =>
    (submitLocked_holds h clean).mono ?_
  rintro - since now ⟨sent, h, clean⟩
  exact ⟨⟨h.release, clean⟩, h.guarantee config _⟩

end Locked

section Run

variable {config : Config} {s t : Client × List JournalEvent}

theorem team_sound (config : Config) : (team config).Sound where
  refl _ _ := ⟨List.prefix_rfl, fun lock => ⟨lock, rfl⟩⟩
  trans h h' := ⟨h.1.trans h'.1, fun lock =>
    ⟨(h'.2 (h.2 lock).1).1, (h'.2 (h.2 lock).1).2.trans (h.2 lock).2⟩⟩
  others w apart owed := ⟨List.prefix_rfl, fun lock => owed _ apart lock⟩
  outside_inv := by
    rintro ⟨c, J⟩ ⟨d, J'⟩ ⟨grown, surroundings, same⟩ ⟨custody, clean⟩
    obtain rfl : d = { c with surroundings } := same
    refine ⟨(custody.grow grown).unmoved ?_ custody.admitted, clean⟩
    exact ⟨rfl, rfl, rfl, rfl, rfl, rfl, rfl, rfl, rfl⟩
  outside_rely := by
    rintro ⟨c, J⟩ ⟨d, J'⟩ task ⟨grown, surroundings, same⟩
    obtain rfl : d = { c with surroundings } := same
    exact ⟨grown, fun lock => ⟨lock, rfl⟩⟩
  started := by
    rintro task p now (rfl | rfl | rfl | ⟨turns, rfl⟩ | ⟨command, rfl⟩) inv
    · exact connect_keeps ⟨rfl, inv⟩
    · exact finishConnect_keeps ⟨rfl, inv⟩
    · exact disconnect_keeps ⟨rfl, inv⟩
    · exact pollEvents_keeps (.of_watching ⟨rfl, inv⟩)
    · exact submitOrder_keeps (.of_watching ⟨rfl, inv⟩)

/-- However the tasks of a client interleave: one mutation for each order id, one
pending submission, each mutation sent with no other submission pending and a
projection that holds nothing back, and one outcome for each order. -/
theorem single_mutation {config : Config} {surroundings : Surroundings}
    {journal : List JournalEvent}
    {loop : Loop Client (List JournalEvent) Raised Reply}
    (reached : (team config).Reachable (.initial surroundings, journal) loop) :
    let c := loop.state.1
    (sentIds c).Nodup ∧ c.pending.keys.length ≤ 1 ∧
      (∀ s ∈ c.sent, s.pending = [s.mutation.clientRequestId] ∧ s.projection.Settled) ∧
      (outcomes c.native).Nodup ∧
      ∀ id ∈ outcomes c.native, ∃ event ∈ loop.state.2, event.settles id = true := by
  have initial : (team config).inv (.initial surroundings, journal) :=
    ⟨.initial surroundings, fun free => by cases free⟩
  obtain ⟨h, -⟩ := reached.inv (team_sound config) initial
  exact ⟨h.sentOnce, h.single, h.guarded, h.outcomeOnce, h.outcomeKnown⟩

section Demo

def demoAllows (wait : Wait) (c : Client) (reply : Except Raised (Reply wait)) : Bool :=
  answered wait (c, [demoStarted]) reply

/-- Connects, then submits one order as far as its mutation. -/
def demoRun : Option (Client × Option (Suspended Client Raised Reply)) :=
  (Team.follow demoAllows demoAnswers ((connect demoConfig).segment demoStart)).bind
    fun connected =>
    if connected.2.isSome then none
    else Team.follow demoAllows [⟨.lock, .ok ()⟩]
      ((submitOrder demoConfig 1 ⟨demoOrder, none, ⟨none, none⟩⟩).segment connected.1)

theorem demoRun_reachable {last : Client × Option (Suspended Client Raised Reply)}
    (run : demoRun = some last) : (team demoConfig).Reachable (demoStart, [demoStarted])
      ⟨(last.1, [demoStarted]), 2, last.2.toList.map (1, ·)⟩ := by
  simp only [demoRun, Option.bind_eq_some_iff, Option.ite_none_left_eq_some] at run
  obtain ⟨⟨c, waiting⟩, connected, idle, run⟩ := run
  obtain rfl : waiting = none := by simpa using idle
  have started := Team.Reachable.next (.start : (team demoConfig).Reachable
    (demoStart, [demoStarted]) ⟨(demoStart, [demoStarted]), 0, []⟩) (.start (.inl rfl))
  have idle := started.follow (fun _ _ _ allowed => allowed) connected
  exact (idle.next (.start (.inr (.inr (.inr (.inr ⟨_, rfl⟩)))))).follow
    (fun _ _ _ allowed => allowed) run

theorem demo_sends : ∃ loop, (team demoConfig).Reachable (demoStart, [demoStarted]) loop ∧
    sentIds loop.state.1 = ["X-1".toList] ∧
    ∀ s ∈ loop.state.1.sent, s.pending = [s.mutation.clientRequestId] ∧ s.projection.Settled := by
  have sends : (demoRun.any fun last => sentIds last.1 = ["X-1".toList]) = true := by decide +kernel
  obtain ⟨last, run, sent⟩ := Option.any_eq_true _ _ |>.1 sends
  have reached := demoRun_reachable run
  exact ⟨_, reached, of_decide_eq_true sent, (single_mutation reached).2.2.1⟩

end Demo

end Run

end ArbNautilus.Mt5
