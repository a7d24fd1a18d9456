import ArbNautilus.Bitfinex.CidFile

namespace ArbNautilus.Bitfinex.Cids

open Base Handler
open Store (Publication)

section Effects

open CidStore

variable {p q : Process} {outcome : Publication}

/-- What a call that records fees or a conflict can do. -/
inductive Effect (p : Process) : Except CidError Unit × Process → Prop
  | refused {e : CidError} (other : e ≠ .parentDirectorySync) : Effect p (.error e, p)
  | settled (durable : p.store.feesDurable = true) : Effect p (.ok (), p)
  | unwritten {s : CidStore} (valid : s.Valid) (same : s.SameBindings p.store)
      (dirty : s.feesDurable = false) : Effect p (.error .osError, { p with store := s })
  | written {s : CidStore} {result : Except CidError Unit} {durable : File} (valid : s.Valid)
      (same : s.SameBindings p.store)
      (outcome : result = .ok () ∧ durable = s.written ∨
        result = .error .parentDirectorySync ∧ durable = p.durable) :
      Effect p (result, { file := s.written, durable, store := s })

/-- A change of the fees in memory, which is then written. -/
theorem effect_persistAll {s : CidStore} (valid : s.Valid) (same : s.SameBindings p.store)
    (dirty : s.feesDurable = false) :
    Effect p (persistAll outcome { p with store := s }) := by
  cases outcome with
  | failed => exact .unwritten valid same dirty
  | published =>
    have clean : Valid { s with feesDurable := true } :=
      ⟨⟨valid.bindings.clients, valid.bindings.cids, valid.bindings.valid⟩,
        ⟨valid.fees.named, valid.fees.bound, valid.fees.valid, valid.fees.apart⟩, valid.last⟩
    exact .written clean ⟨same.account, same.byClient, same.byCid, same.lastCid⟩
      (.inl ⟨rfl, rfl⟩)
  | parentSyncFailed => exact .written valid same (.inr ⟨rfl, rfl⟩)

theorem saveFeeMetadata_effect (valid : p.store.Valid) {metadata : FeeMetadata Decimal}
    (fine : metadata.Valid) (bound : p.store.byCid.get? metadata.cid ≠ none)
    (apart : ∀ {cid other}, p.store.feeMetadata.get? cid = some other →
      other.venueOrderId = metadata.venueOrderId → other.cid = metadata.cid) :
    Effect p (saveFeeMetadata outcome metadata p) := by
  by_cases known : (p.store.feeMetadata.get? metadata.cid).map FeeMetadata.facts =
      some metadata.facts ∧ p.store.feesDurable = true
  · have kept : saveFeeMetadata outcome metadata p = (.ok (), p) := by
      change (ite _ _ _ : StoreCall Unit) p = _
      rw [if_pos known]
      rfl
    rw [kept]
    exact .settled known.2
  · have changed : saveFeeMetadata outcome metadata p = persistAll outcome { p with
        store := { p.store with
          feeMetadata := p.store.feeMetadata.set metadata.cid metadata, feesDurable := false }
            } := by
      change (ite _ _ _ : StoreCall Unit) p = _
      rw [if_neg known]
      rfl
    rw [changed]
    refine effect_persistAll ⟨⟨valid.bindings.clients, valid.bindings.cids, valid.bindings.valid⟩,
      valid.fees.set fine bound apart rfl rfl, valid.last⟩
      ⟨rfl, fun _ => rfl, fun _ => rfl, rfl⟩ rfl

theorem markAccountingConflict_effect (valid : p.store.Valid) :
    Effect p (markAccountingConflict outcome p) := by
  by_cases known : p.store.accountingConflict = true ∧ p.store.feesDurable = true
  · have kept : markAccountingConflict outcome p = (.ok (), p) := by
      change (ite _ _ _ : StoreCall Unit) p = _
      rw [if_pos known]
      rfl
    rw [kept]
    exact .settled known.2
  · have changed : markAccountingConflict outcome p = persistAll outcome { p with
        store := { p.store with accountingConflict := true, feesDurable := false } } := by
      change (ite _ _ _ : StoreCall Unit) p = _
      rw [if_neg known]
      rfl
    rw [changed]
    refine effect_persistAll ⟨⟨valid.bindings.clients, valid.bindings.cids, valid.bindings.valid⟩,
      ⟨valid.fees.named, valid.fees.bound, valid.fees.valid, valid.fees.apart⟩, valid.last⟩
      ⟨rfl, fun _ => rfl, fun _ => rfl, rfl⟩ rfl

/-- The metadata a scope names is valid, and its order is no other's. -/
theorem feeScope_valid {s : CidStore} (valid : s.Valid) {scope current : FeeMetadata Decimal}
    (fine : scope.ScopeValid) (h : s.feeScope scope = .ok current) :
    current.Valid ∧ current.cid = scope.cid ∧ current.venueOrderId = scope.venueOrderId := by
  obtain ⟨bound, fills, trades, rfl, same, -⟩ := feeScope_eq_ok h
  have cids := congrArg FeeMetadata.cid same
  have venues := congrArg FeeMetadata.venueOrderId same
  refine ⟨?_, cids, venues⟩
  cases known : s.feeMetadata.get? scope.cid with
  | some metadata => exact valid.fees.valid known
  | none =>
    obtain ⟨binding, found⟩ := Option.ne_none_iff_exists'.1 bound
    have range := valid.bindings.valid found
    have named := (valid.bindings.cids found).1
    refine ⟨fine, ?_, ?_, ?_, ?_, ?_, ?_⟩ <;> simp only [Option.getD_none]
    · exact named ▸ range.cid_pos
    · exact named ▸ range.cid_le
    · simp [fills]
    · simp [trades]
    · simp [fills]
    · simp [trades]

/-- A call whose check raises has changed nothing yet. -/
theorem of_check {α β : Type} {C : Except CidError β × Process → Prop} {x : Except CidError α}
    {next : α → StoreCall β} (refused : ∀ {e}, e ≠ .parentDirectorySync → C (.error e, p))
    (never : Never .parentDirectorySync x) (rest : ∀ a, x = .ok a → C (next a p)) :
    C ((check x >>= next) p) := by
  cases x with
  | error e => exact refused fun same => never (congrArg _ same)
  | ok a => exact rest a rfl

theorem of_raiseWhen {β : Type} {C : Except CidError β × Process → Prop} {c : Prop} [Decidable c]
    {e : CidError} {next : Unit → StoreCall β}
    (refused : ∀ {e}, e ≠ .parentDirectorySync → C (.error e, p)) (never : e ≠ .parentDirectorySync)
    (rest : ¬c → C (next () p)) : C ((raiseWhen c e >>= next) p) := by
  by_cases raised : c
  · rw [raiseWhen, if_pos raised]
    exact refused never
  · rw [raiseWhen, if_neg raised]
    exact rest raised

theorem never_feeScope (s : CidStore) (scope : FeeMetadata Decimal) :
    Never .parentDirectorySync (s.feeScope scope) :=
  never_bind (never_raiseIf nofun) fun _ => never_bind (never_raiseIf nofun) fun _ => never_pure _

theorem never_settledTrade (previous : Option (FeeTrade Decimal)) (trade : FeeTrade Decimal) :
    Never .parentDirectorySync (settledTrade previous trade) := by
  cases previous with
  | none => exact never_ok _
  | some previous =>
    exact never_bind (never_raiseIf nofun) fun _ => never_bind (never_raiseIf nofun)
      fun _ => never_pure _

theorem recordNativeFill_effect (valid : p.store.Valid) {scope : FeeMetadata Decimal}
    {fill : NativeFill Decimal} (fine : scope.ScopeValid) (observed : fill.Valid) :
    Effect p (recordNativeFill outcome scope fill p) := by
  change Effect p ((check (p.store.feeScope scope) >>= _) p)
  refine of_check .refused (never_feeScope _ _) fun current named => ?_
  obtain ⟨bound, -, -, -, -, apart⟩ := feeScope_eq_ok named
  obtain ⟨kept, cid, venue⟩ := feeScope_valid valid fine named
  cases known : current.nativeFills.find? (·.tradeId = fill.tradeId) with
  | some previous =>
    refine of_raiseWhen .refused nofun fun _ => ?_
    exact saveFeeMetadata_effect valid kept (by rw [cid]; exact bound)
      (by rw [cid, venue]; exact apart)
  | none =>
    have others : ∀ row ∈ current.nativeFills, row.tradeId ≠ fill.tradeId := by
      simpa using known
    refine saveFeeMetadata_effect valid ⟨⟨kept.venue, kept.instrument, kept.symbol⟩, kept.cid_pos,
      kept.cid_le, ?_, kept.trades, ?_, kept.tradesOnce⟩ (by rw [cid]; exact bound)
        (by rw [cid, venue]; exact apart)
    · intro row member
      rcases List.mem_append.1 member with old | new
      · exact kept.fills row old
      · exact List.mem_singleton.1 new ▸ observed
    · rw [List.map_append, List.nodup_append]
      refine ⟨kept.fillsOnce, by simp, ?_⟩
      intro id old id' new
      obtain ⟨row, member, rfl⟩ := List.mem_map.1 old
      obtain rfl : id' = fill.tradeId := by simpa using new
      exact others row member

theorem settledTrade_valid {current : FeeMetadata Decimal} (valid : current.Valid)
    {trade settled : FeeTrade Decimal} (observed : trade.Valid)
    (h : settledTrade (current.venueTrades.find? (·.tradeId = trade.tradeId)) trade = .ok settled) :
    settled.Valid ∧ settled.tradeId = trade.tradeId := by
  cases known : current.venueTrades.find? (·.tradeId = trade.tradeId) with
  | none =>
    rw [known] at h
    cases h
    exact ⟨observed, rfl⟩
  | some previous =>
    rw [known] at h
    simp only [settledTrade, bind_eq_ok, pure_eq_ok] at h
    obtain ⟨_, -, _, -, rfl⟩ := h
    split
    · exact ⟨valid.trades previous (List.mem_of_find?_eq_some known),
        by simpa using List.find?_some known⟩
    · exact ⟨observed, rfl⟩

theorem recordVenueTrade_effect (valid : p.store.Valid) {scope : FeeMetadata Decimal}
    {trade : FeeTrade Decimal} (fine : scope.ScopeValid) (observed : trade.Valid) :
    Effect p (recordVenueTrade outcome scope trade p) := by
  change Effect p ((check (p.store.feeScope scope) >>= _) p)
  refine of_check .refused (never_feeScope _ _) fun current named => ?_
  obtain ⟨bound, -, -, -, -, apart⟩ := feeScope_eq_ok named
  obtain ⟨kept, cid, venue⟩ := feeScope_valid valid fine named
  refine of_check .refused (never_settledTrade _ _) fun settled accepted => ?_
  obtain ⟨settledValid, id⟩ := settledTrade_valid kept observed accepted
  let rows := (Dict.ofList (current.venueTrades.map fun row => (row.tradeId, row))).set
    settled.tradeId settled
  have listed {key : ℤ} {row : FeeTrade Decimal} (found : rows.get? key = some row) :
      row.tradeId = key ∧ row.Valid := by
    rw [Dict.get?_set] at found
    split at found
    · rename_i same
      cases found
      exact ⟨same, settledValid⟩
    · obtain ⟨row', member, same⟩ := List.mem_map.1 (Dict.mem_of_get?_ofList found)
      cases same
      exact ⟨rfl, kept.trades _ member⟩
  refine saveFeeMetadata_effect valid ⟨⟨kept.venue, kept.instrument, kept.symbol⟩, kept.cid_pos,
    kept.cid_le, kept.fills, ?_, kept.fillsOnce, nodup_of_keys fun found => (listed found).1⟩
      (by rw [cid]; exact bound)
    (by rw [cid, venue]; exact apart)
  intro row member
  obtain ⟨key, found⟩ := (Dict.mem_values_iff _ _).1 member
  exact (listed found).2

/-- What an allocation can do. -/
inductive Allocated (p : Process) : Except CidError CidBinding × Process → Prop
  | refused {e : CidError} (other : e ≠ .parentDirectorySync) : Allocated p (.error e, p)
  | written {s : CidStore} {binding : CidBinding} {result : Except CidError CidBinding}
      {durable : File}
      (valid : s.Valid) (account : s.accountId = p.store.accountId)
      (later : p.store.lastCid < binding.cid) (held : s.byCid.get? binding.cid = some binding)
      (kept : ∀ cid, cid ≠ binding.cid → s.byCid.get? cid = p.store.byCid.get? cid)
      (outcome : result = .ok binding ∧ durable = s.written ∨
        result = .error .parentDirectorySync ∧ durable = p.durable) :
      Allocated p (result, { file := s.written, durable, store := s })

theorem canonicalDate_allocatedDate {epochMs : ℤ} (low : 0 ≤ epochMs) (high : epochMs ≤ maxCid) :
    canonicalDate (allocatedDate epochMs) = true := by
  have early : (epochMs / 1000 / 86400).toNat < 365 * 8000 := by
    unfold maxCid at high
    omega
  simp [canonicalDate, allocatedDate, Date.ofIsoformat_isoformat (Date.valid_ofDays early)]

theorem remember_valid {s : CidStore} (valid : s.Valid) {binding : CidBinding}
    (fine : binding.Valid)
    (free : s.byClient.get? binding.clientOrderId = none) (later : s.lastCid < binding.cid) :
    (s.remember binding).Valid ∧
      (s.remember binding).bindings = s.bindings ++ [binding] := by
  have unused : s.byCid.get? binding.cid = none := by
    cases found : s.byCid.get? binding.cid with
    | none => rfl
    | some other => exact absurd (valid.cid_le_last found) (not_le.2 later)
  refine ⟨⟨valid.bindings.add fine free unused rfl rfl, ?_, ?_⟩, ?_⟩
  · refine ⟨valid.fees.named, fun {cid metadata} found => ?_, valid.fees.valid, valid.fees.apart⟩
    obtain ⟨other, held⟩ := Option.ne_none_iff_exists'.1 (valid.fees.bound found)
    simp only [remember]
    rw [Dict.get?_set]
    split
    · simp
    · rw [held]
      simp
  · have keys : (s.remember binding).byCid.keys = s.byCid.keys ++ [binding.cid] :=
      Dict.keys_set_of_get?_none unused binding
    have last : maxKey s.byCid.keys ≤ binding.cid := by
      rw [← valid.last]
      exact later.le
    rw [keys, maxKey, List.foldl_append, ← maxKey]
    exact (max_eq_right last).symm
  · simp only [remember, bindings, Dict.values, Dict.set]
    rw [Dict.assign_fresh ((Dict.get?_eq_none_iff _ _).1 free), List.map_append]
    rfl

theorem allocate_effect (valid : p.store.Valid) {clientOrderId : PyStr} {epochMs : ℤ} :
    Allocated p (allocate outcome clientOrderId epochMs p) := by
  refine of_check .refused (never_text _ _) fun clientId named => ?_
  obtain ⟨_, same, full, rfl⟩ := text_eq_ok.1 named
  cases same
  refine of_raiseWhen .refused nofun fun free => ?_
  refine of_check .refused (never_nonnegativeInt _ _) fun nowMs clock => ?_
  obtain ⟨_, same, low, rfl⟩ := nonnegativeInt_eq_ok.1 clock
  cases same
  refine of_raiseWhen .refused nofun fun room => ?_
  let binding : CidBinding :=
    ⟨clientOrderId, max epochMs (p.store.lastCid + 1), allocatedDate epochMs⟩
  have later : p.store.lastCid < binding.cid :=
    Int.lt_of_lt_of_le (Int.lt_succ _) (le_max_right _ _)
  have room : binding.cid ≤ maxCid := not_lt.1 room
  have fine : binding.Valid :=
    ⟨full, Int.lt_of_le_of_lt valid.last_nonneg later, room,
      canonicalDate_allocatedDate low (Int.le_trans (le_max_left _ _) room)⟩
  obtain ⟨kept, listed⟩ := remember_valid valid fine (not_not.1 free) later
  have file : (p.store.remember binding).written =
      .holds (p.store.payload binding.cid (p.store.bindings ++ [binding])) := by
    rw [written, listed]
    rfl
  have held : (p.store.remember binding).byCid.get? binding.cid = some binding :=
    Dict.get?_set_self _ _ _
  have others : ∀ cid, cid ≠ binding.cid →
      (p.store.remember binding).byCid.get? cid = p.store.byCid.get? cid :=
    fun cid other => Dict.get?_set_of_ne _ other.symm _
  cases outcome with
  | failed => exact .refused nofun
  | published =>
    have result : Allocated p (.ok binding, ⟨.holds (p.store.payload binding.cid
        (p.store.bindings ++ [binding])), .holds (p.store.payload binding.cid
        (p.store.bindings ++ [binding])),
          { p.store.remember binding with feesDurable := true }⟩) := by
      rw [← file]
      have clean : CidStore.Valid { p.store.remember binding with feesDurable := true } :=
        ⟨⟨kept.bindings.clients, kept.bindings.cids, kept.bindings.valid⟩,
          ⟨kept.fees.named, kept.fees.bound, kept.fees.valid, kept.fees.apart⟩, kept.last⟩
      exact .written clean rfl later held others (.inl ⟨rfl, rfl⟩)
    exact result
  | parentSyncFailed =>
    have result : Allocated p (.error .parentDirectorySync, ⟨.holds (p.store.payload binding.cid
        (p.store.bindings ++ [binding])), p.durable, p.store.remember binding⟩) := by
      rw [← file]
      exact .written kept rfl later held others (.inr ⟨rfl, rfl⟩)
    exact result

end Effects

section Runs

open CidStore

inductive Call
  | allocate (clientOrderId : PyStr) (epochMs : ℤ)
  | recordNativeFill (scope : FeeMetadata Decimal) (fill : NativeFill Decimal)
  | recordVenueTrade (scope : FeeMetadata Decimal) (trade : FeeTrade Decimal)
  | markAccountingConflict

/-- A call with what becomes of its write, or a new process on the same path. -/
inductive Event
  | call (made : Call) (outcome : Publication)
  | reload

def Call.perform : Call → Publication → StoreCall (Option CidBinding)
  | .allocate clientOrderId epochMs, outcome => do
    let binding ← Cids.allocate outcome clientOrderId epochMs
    pure (some binding)
  | .recordNativeFill scope fill, outcome => do
    Cids.recordNativeFill outcome scope fill
    pure none
  | .recordVenueTrade scope trade, outcome => do
    Cids.recordVenueTrade outcome scope trade
    pure none
  | .markAccountingConflict, outcome => do
    Cids.markAccountingConflict outcome
    pure none

/-- Its fee facts are those the execution client records. -/
def Call.Observed : Call → Prop
  | .recordNativeFill scope fill => scope.ScopeValid ∧ fill.Valid
  | .recordVenueTrade scope trade => scope.ScopeValid ∧ trade.Valid
  | .allocate _ _ | .markAccountingConflict => True

def Event.Observed : Event → Prop
  | .call made _ => made.Observed
  | .reload => True

/-- A process with the bindings it returned and those of every file so far. -/
structure History where
  process : Process
  returned : List CidBinding
  published : List CidBinding

def bindingsIn (accountId : PyStr) (file : File) : List CidBinding :=
  match init accountId file with
  | .ok s => s.bindings
  | .error _ => []

def returnedBy : Except CidError (Option CidBinding) → List CidBinding
  | .ok (some binding) => [binding]
  | .ok none | .error _ => []

def History.start (accountId : PyStr) (file : File) (store : CidStore) : History :=
  ⟨⟨file, file, store⟩, [], bindingsIn accountId file⟩

def History.step (accountId : PyStr) (h : History) : Event → History
  | .call call outcome =>
    let (result, process) := call.perform outcome h.process
    ⟨process, h.returned ++ returnedBy result, h.published ++ bindingsIn accountId process.file⟩
  | .reload => match init accountId h.process.file with
    | .ok store => { h with process := { h.process with store } }
    | .error _ => h

def History.run (accountId : PyStr) (h : History) (events : List Event) : History :=
  events.foldl (History.step accountId) h

/-- What holds between two events. -/
structure Sound (accountId : PyStr) (h : History) : Prop where
  account : text (.str accountId) "account_id" = .ok accountId
  same : h.process.store.accountId = accountId
  valid : h.process.store.Valid
  saved : ∃ s, init accountId h.process.file = .ok s ∧ s.SameBindings h.process.store ∧
    (h.process.store.feesDurable = true → s.SameFees h.process.store)
  published : ∀ binding ∈ h.published,
    h.process.store.byCid.get? binding.cid = some binding
  returned : ∀ binding ∈ h.returned, h.process.store.byCid.get? binding.cid = some binding
  durable : ∃ s, init accountId h.process.durable = .ok s ∧
    ∀ binding ∈ h.returned, s.byCid.get? binding.cid = some binding
  increasing : (h.returned.map (·.cid)).Pairwise (· < ·)

variable {accountId : PyStr} {h : History}

theorem init_eq_ok {file : File} {s : CidStore} :
    init accountId file = .ok s ↔
      text (.str accountId) "account_id" = .ok accountId ∧ load accountId file = .ok s := by
  simp only [init, bind_eq_ok]
  constructor
  · rintro ⟨_, named, read⟩
    obtain ⟨_, same, -, rfl⟩ := text_eq_ok.1 named
    cases same
    exact ⟨named, read⟩
  · rintro ⟨named, read⟩
    exact ⟨_, named, read⟩

/-- The file a valid store has written opens as that store. -/
theorem init_written {s : CidStore} (account : text (.str accountId) "account_id" = .ok accountId)
    (named : s.accountId = accountId) (valid : s.Valid) :
    ∃ t, init accountId s.written = .ok t ∧ t.Same s := by
  obtain ⟨t, read, same⟩ := load_payload valid
  subst named
  exact ⟨t, init_eq_ok.2 ⟨account, read⟩, same⟩

theorem mem_bindingsIn {file : File} {s : CidStore} (read : init accountId file = .ok s)
    {binding : CidBinding} (member : binding ∈ bindingsIn accountId file) :
    s.byCid.get? binding.cid = some binding := by
  rw [bindingsIn, read] at member
  exact (load_valid (init_eq_ok.1 read).2).1.bindings.mem_values_iff.1 member

theorem Sound.start {file : File} {store : CidStore} (opened : init accountId file = .ok store) :
    Sound accountId (.start accountId file store) := by
  obtain ⟨account, read⟩ := init_eq_ok.1 opened
  obtain ⟨valid, same, -⟩ := load_valid read
  exact ⟨account, same, valid, ⟨store, opened, (Same.refl store).1, fun _ => (Same.refl store).2⟩,
    fun binding member => mem_bindingsIn opened member, by simp [History.start],
    ⟨store, opened, by simp [History.start]⟩, by simp [History.start]⟩

/-- What any call does, whichever it is. -/
theorem perform_effect {p : Process} (valid : p.store.Valid) {call : Call}
    (observed : call.Observed)
    (outcome : Publication) :
    (∃ clientOrderId epochMs, call = .allocate clientOrderId epochMs ∧
      Allocated p (allocate outcome clientOrderId epochMs p)) ∨
    ∃ result : Except CidError Unit × Process, Effect p result ∧
      call.perform outcome p = (result.1.map fun _ => none, result.2) := by
  have returns (m : StoreCall Unit) : (m >>= fun _ => pure (none : Option CidBinding)) p =
      ((m p).1.map fun _ => none, (m p).2) := by
    simp only [bind]
    rcases m p with ⟨_ | _, _⟩ <;> rfl
  cases call with
  | allocate clientOrderId epochMs => exact .inl ⟨_, _, rfl, allocate_effect valid⟩
  | recordNativeFill scope fill =>
    exact .inr ⟨_, recordNativeFill_effect valid observed.1 observed.2, returns _⟩
  | recordVenueTrade scope trade =>
    exact .inr ⟨_, recordVenueTrade_effect valid observed.1 observed.2, returns _⟩
  | markAccountingConflict => exact .inr ⟨_, markAccountingConflict_effect valid, returns _⟩

theorem perform_allocate (outcome : Publication) (clientOrderId : PyStr) (epochMs : ℤ)
    (p : Process) :
    (Call.allocate clientOrderId epochMs).perform outcome p =
      ((allocate outcome clientOrderId epochMs p).1.map some,
        (allocate outcome clientOrderId epochMs p).2) := by
  simp only [Call.perform, bind]
  rcases allocate outcome clientOrderId epochMs p with ⟨_ | _, _⟩ <;> rfl

theorem CidStore.SameBindings.held {s t : CidStore} (same : s.SameBindings t) {cid : ℤ}
    {binding : CidBinding} (found : s.byCid.get? cid = some binding) :
    t.byCid.get? cid = some binding := by
  rw [← same.byCid]
  exact found

/-- Reading the file back changes nothing but the pending fees. -/
theorem Sound.reload (sound : Sound accountId h) : Sound accountId (h.step accountId .reload) := by
  obtain ⟨s, opened, same, -⟩ := sound.saved
  have stepped : h.step accountId .reload =
      { h with process := { h.process with store := s } } := by
    simp only [History.step, opened]
  obtain ⟨valid, named, -⟩ := load_valid (init_eq_ok.1 opened).2
  rw [stepped]
  exact ⟨sound.account, named, valid, ⟨s, opened, (Same.refl s).1, fun _ => (Same.refl s).2⟩,
    fun binding member => same.symm.held (sound.published binding member),
    fun binding member => same.symm.held (sound.returned binding member), sound.durable,
    sound.increasing⟩

/-- A call that leaves the bindings as they are. -/
theorem Sound.keep (sound : Sound accountId h) {q : Process} (valid : q.store.Valid)
    (same : q.store.SameBindings h.process.store)
    (saved : ∃ s, init accountId q.file = .ok s ∧ s.SameBindings q.store ∧
      (q.store.feesDurable = true → s.SameFees q.store))
    (durable : q.durable = h.process.durable ∨ q.durable = q.file) :
    Sound accountId ⟨q, h.returned, h.published ++ bindingsIn accountId q.file⟩ := by
  refine ⟨sound.account, same.account.trans sound.same, valid, saved, ?_,
    fun binding member => same.symm.held (sound.returned binding member), ?_, sound.increasing⟩
  · intro binding member
    obtain ⟨s, opened, read, -⟩ := saved
    rcases List.mem_append.1 member with old | new
    · exact same.symm.held (sound.published binding old)
    · exact read.held (mem_bindingsIn opened new)
  · rcases durable with before | now
    · rw [before]
      exact sound.durable
    · rw [now]
      obtain ⟨s, opened, read, -⟩ := saved
      exact ⟨s, opened, fun binding member =>
        read.symm.held (same.symm.held (sound.returned binding member))⟩

theorem Sound.effect (sound : Sound accountId h) {result : Except CidError Unit × Process}
    (effect : Effect h.process result) :
    Sound accountId ⟨result.2, h.returned, h.published ++ bindingsIn accountId result.2.file⟩ := by
  cases effect with
  | refused _ => exact sound.keep sound.valid (Same.refl _).1 sound.saved (.inl rfl)
  | settled _ => exact sound.keep sound.valid (Same.refl _).1 sound.saved (.inl rfl)
  | unwritten valid same dirty =>
    obtain ⟨s, opened, read, -⟩ := sound.saved
    refine sound.keep valid same ⟨s, opened, read.trans same.symm, fun clean => ?_⟩ (.inl rfl)
    rw [dirty] at clean
    cases clean
  | written valid same outcome =>
    obtain ⟨t, opened, read⟩ := init_written sound.account (same.account.trans sound.same) valid
    refine sound.keep valid same ⟨t, opened, read.1, fun _ => read.2⟩ ?_
    rcases outcome with ⟨-, now⟩ | ⟨-, before⟩
    · exact .inr now
    · exact .inl before

theorem Sound.allocated (sound : Sound accountId h) {result : Except CidError CidBinding × Process}
    (effect : Allocated h.process result) :
    Sound accountId ⟨result.2, h.returned ++ returnedBy (result.1.map some),
      h.published ++ bindingsIn accountId result.2.file⟩ := by
  cases effect with
  | refused _ =>
    have kept := sound.keep sound.valid (Same.refl _).1 sound.saved (.inl rfl)
    simpa [returnedBy, Except.map] using kept
  | @written s binding result durable valid account later held kept outcome =>
    obtain ⟨t, opened, read⟩ := init_written sound.account (account.trans sound.same) valid
    have keeps {other : CidBinding} (found : h.process.store.byCid.get? other.cid = some other) :
        s.byCid.get? other.cid = some other := by
      rw [kept _ fun same => ?_]
      · exact found
      · exact absurd (sound.valid.cid_le_last found) (by rw [same]; exact not_le.2 later)
    have returned : ∀ other ∈ h.returned ++ returnedBy (result.map some),
        s.byCid.get? other.cid = some other := by
      intro other member
      rcases List.mem_append.1 member with old | new
      · exact keeps (sound.returned other old)
      · rcases outcome with ⟨rfl, -⟩ | ⟨rfl, -⟩
        · obtain rfl : other = binding := by simpa [returnedBy, Except.map] using new
          exact held
        · cases new
    refine ⟨sound.account, account.trans sound.same, valid, ⟨t, opened, read.1, fun _ => read.2⟩,
      ?_, returned, ?_, ?_⟩
    · intro other member
      rcases List.mem_append.1 member with old | new
      · exact keeps (sound.published other old)
      · exact read.1.held (mem_bindingsIn opened new)
    · rcases outcome with ⟨rfl, rfl⟩ | ⟨rfl, rfl⟩
      · exact ⟨t, opened, fun other member => read.1.symm.held (returned other member)⟩
      · simpa [returnedBy, Except.map] using sound.durable
    · rcases outcome with ⟨rfl, -⟩ | ⟨rfl, -⟩
      · simp only [Except.map, returnedBy, List.map_append, List.pairwise_append]
        refine ⟨sound.increasing, by simp, ?_⟩
        intro cid old cid' new
        obtain ⟨other, member, rfl⟩ := List.mem_map.1 old
        obtain rfl : cid' = binding.cid := by simpa using new
        exact Int.lt_of_le_of_lt (sound.valid.cid_le_last (sound.returned other member)) later
      · simpa [returnedBy, Except.map] using sound.increasing

theorem Sound.step (sound : Sound accountId h) {event : Event} (observed : event.Observed) :
    Sound accountId (h.step accountId event) := by
  cases event with
  | reload => exact sound.reload
  | call call outcome =>
    rcases perform_effect sound.valid observed outcome with
      ⟨clientOrderId, epochMs, rfl, effect⟩ | ⟨result, effect, performed⟩
    · simp only [History.step, perform_allocate]
      exact sound.allocated effect
    · simp only [History.step, performed]
      have kept := sound.effect effect
      cases outcome : result.1 <;> simpa [outcome, returnedBy, Except.map] using kept

theorem Sound.run (sound : Sound accountId h) {events : List Event}
    (observed : ∀ event ∈ events, event.Observed) : Sound accountId (h.run accountId events) := by
  induction events generalizing h with
  | nil => exact sound
  | cons event events ih =>
    exact ih (sound.step (observed event (by simp))) fun other member => observed other
      (by simp [member])

/-- What is promised of the cids after any events, and of the call after them. -/
structure CidsOnce (accountId : PyStr) (h : History) : Prop where
  increasing : (h.returned.map (·.cid)).Pairwise (· < ·)
  bounded : ∀ binding ∈ h.returned, 1 ≤ binding.cid ∧ binding.cid ≤ maxCid
  once : ∀ a ∈ h.returned ++ h.published, ∀ b ∈ h.returned ++ h.published,
    a.cid = b.cid ∨ a.clientOrderId = b.clientOrderId → a = b
  durable : ∃ s, init accountId h.process.durable = .ok s ∧ ∀ binding ∈ h.returned,
    s.byCid.get? binding.cid = some binding ∧
      s.byClient.get? binding.clientOrderId = some binding
  neverAgain : ∀ {outcome clientOrderId epochMs binding q},
    allocate outcome clientOrderId epochMs h.process = (.ok binding, q) →
    ∀ old ∈ h.returned ++ h.published, old.cid < binding.cid
  unpublished : ∀ {outcome clientOrderId epochMs e q},
    allocate outcome clientOrderId epochMs h.process = (.error e, q) →
    e ≠ .parentDirectorySync → q = h.process
  reopens : ∀ {call : Call} {outcome result} {q : Process}, call.Observed →
    call.perform outcome h.process = (result, q) →
    result.isOk = true ∨ result = .error .parentDirectorySync →
    ∃ s, init accountId q.file = .ok s ∧ s.Same q.store
  untouched : ∀ {call : Call} {outcome e} {q : Process}, call.Observed →
    call.perform outcome h.process = (.error e, q) → e ≠ .parentDirectorySync →
    q.file = h.process.file

theorem Sound.neverAgain (sound : Sound accountId h) {outcome : Publication} {clientOrderId : PyStr}
    {epochMs : ℤ} {binding : CidBinding} {q : Process}
    (made : allocate outcome clientOrderId epochMs h.process = (.ok binding, q)) {old : CidBinding}
    (member : old ∈ h.returned ++ h.published) : old.cid < binding.cid := by
  have found : h.process.store.byCid.get? old.cid = some old := by
    rcases List.mem_append.1 member with first | first
    · exact sound.returned old first
    · exact sound.published old first
  have effect := @allocate_effect h.process outcome sound.valid clientOrderId epochMs
  rw [made] at effect
  cases effect with
  | written _ _ later _ _ outcome =>
    rcases outcome with ⟨same, -⟩ | ⟨same, -⟩
    · cases same
      exact Int.lt_of_le_of_lt (sound.valid.cid_le_last found) later
    · cases same

theorem Sound.unpublished (sound : Sound accountId h) {outcome : Publication}
    {clientOrderId : PyStr}
    {epochMs : ℤ} {e : CidError} {q : Process}
    (made : allocate outcome clientOrderId epochMs h.process = (.error e, q))
    (other : e ≠ .parentDirectorySync) : q = h.process := by
  have effect := @allocate_effect h.process outcome sound.valid clientOrderId epochMs
  rw [made] at effect
  cases effect with
  | refused _ => rfl
  | written _ _ _ _ _ outcome =>
    rcases outcome with ⟨same, -⟩ | ⟨same, -⟩ <;> cases same
    exact absurd rfl other

theorem Sound.reopens (sound : Sound accountId h) {call : Call} {outcome : Publication}
    {result : Except CidError (Option CidBinding)} {q : Process} (observed : call.Observed)
    (made : call.perform outcome h.process = (result, q)) :
    (result.isOk = true ∨ result = .error .parentDirectorySync →
      ∃ s, init accountId q.file = .ok s ∧ s.Same q.store) ∧
    ∀ e, result = .error e → e ≠ .parentDirectorySync → q.file = h.process.file := by
  rcases perform_effect sound.valid observed outcome with
    ⟨clientOrderId, epochMs, rfl, effect⟩ | ⟨⟨answer, r⟩, effect, performed⟩
  · rw [perform_allocate] at made
    generalize allocate outcome clientOrderId epochMs h.process = attempt at made effect
    cases made
    cases effect with
    | refused other =>
      refine ⟨?_, fun e _ _ => rfl⟩
      rintro (fine | same)
      · cases fine
      · exact absurd (Except.error.inj same) other
    | written valid account _ _ _ outcome =>
      refine ⟨fun _ => init_written sound.account (account.trans sound.same) valid, ?_⟩
      rintro e raised other
      rcases outcome with ⟨rfl, -⟩ | ⟨rfl, -⟩ <;> cases raised
      exact absurd rfl other
  · rw [performed] at made
    cases made
    cases effect with
    | refused other =>
      refine ⟨?_, fun e _ _ => rfl⟩
      rintro (fine | same)
      · cases fine
      · exact absurd (Except.error.inj same) other
    | settled clean =>
      obtain ⟨s, opened, same, fees⟩ := sound.saved
      exact ⟨fun _ => ⟨s, opened, same, fees clean⟩, fun _ _ _ => rfl⟩
    | unwritten _ _ _ =>
      refine ⟨?_, fun e _ _ => rfl⟩
      rintro (fine | same)
      · cases fine
      · cases same
    | written valid same outcome =>
      refine ⟨fun _ => init_written sound.account (same.account.trans sound.same) valid, ?_⟩
      rintro e raised other
      rcases outcome with ⟨rfl, -⟩ | ⟨rfl, -⟩ <;> cases raised
      exact absurd rfl other

/-- Over any run on one path, whichever writes fail and however the clock moves. -/
theorem cids_once {file : File} {store : CidStore} (opened : init accountId file = .ok store)
    (events : List Event) (observed : ∀ event ∈ events, event.Observed) :
    CidsOnce accountId ((History.start accountId file store).run accountId events) := by
  have sound := (Sound.start opened).run observed
  generalize (History.start accountId file store).run accountId events = h at sound
  have held : ∀ binding ∈ h.returned ++ h.published,
      h.process.store.byCid.get? binding.cid = some binding := by
    intro binding member
    rcases List.mem_append.1 member with first | first
    · exact sound.returned binding first
    · exact sound.published binding first
  refine ⟨sound.increasing, ?_, ?_, ?_, fun made _ member => sound.neverAgain made member,
    sound.unpublished, fun observed made => (sound.reopens observed made).1,
    fun observed made => (sound.reopens observed made).2 _ rfl⟩
  · intro binding member
    have fine := sound.valid.bindings.valid (sound.returned binding member)
    exact ⟨fine.cid_pos, fine.cid_le⟩
  · rintro a first b second (same | same)
    · have found := held a first
      rw [same, held b second] at found
      cases found
      rfl
    · have found := (sound.valid.bindings.cids (held a first)).2
      rw [same, (sound.valid.bindings.cids (held b second)).2] at found
      cases found
      rfl
  · obtain ⟨s, opened, returned⟩ := sound.durable
    have valid := (load_valid (init_eq_ok.1 opened).2).1
    exact ⟨s, opened, fun binding member =>
      ⟨returned binding member, (valid.bindings.cids (returned binding member)).2⟩⟩

end Runs

section Demo

def demoAccount : PyStr := key "BITFINEX-001"

def demoTrade : FeeTrade Decimal where
  tradeId := 7
  tsEventMs := 900
  executionQty := ⟨false, 125, -2⟩
  executionPrice := ⟨false, 2, 3⟩
  orderType := key "LIMIT"
  orderPrice := ⟨false, 2000, 0⟩
  maker := true
  rawFee := none
  feeCurrency := none

def demoScope : FeeMetadata Decimal where
  cid := 1001
  venueOrderId := 55
  instrumentId := key "XAUT/USD.BITFINEX"
  rawSymbol := key "tXAUT:USD"

/-- The clock goes back, one write fails, one directory is not synced, and two processes follow. -/
def demoEvents : List Event :=
  [.call (.allocate (key "O-1") 1000) .published,
    .call (.allocate (key "O-2") 400) .failed,
    .call (.allocate (key "O-2") 400) .published,
    .call (.recordVenueTrade demoScope demoTrade) .failed,
    .call (.allocate (key "O-3") 500) .parentSyncFailed,
    .reload, .call (.allocate (key "O-4") 0) .published,
    .call .markAccountingConflict .published,
    .reload]

theorem demoEvents_observed : ∀ event ∈ demoEvents, event.Observed := by
  have scope : demoScope.ScopeValid := ⟨by decide, by decide, by decide⟩
  have trade : demoTrade.Valid :=
    ⟨by decide, by decide, by decide +kernel, by decide +kernel, by decide, by decide +kernel, rfl,
      nofun⟩
  simp [demoEvents, Event.Observed, Call.Observed, scope, trade]

def demoHistory : History :=
  (History.start demoAccount .absent { accountId := demoAccount }).run demoAccount demoEvents

theorem demo_cids : demoHistory.returned.map (·.cid) = [1000, 1001, 1003] ∧
    CidsOnce demoAccount demoHistory :=
  ⟨by decide +kernel, cids_once rfl demoEvents demoEvents_observed⟩

end Demo

end ArbNautilus.Bitfinex.Cids
