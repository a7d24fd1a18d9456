import ArbNautilus.Store.Migration

namespace ArbNautilus.Store

open Base

namespace OwnerConfig

variable {cfg : OwnerConfig} {b : Book}

/-- A route opens with what its migrated orders left unhedged. -/
theorem openingBalance_eq (cfg : OwnerConfig) (r : Route) :
    cfg.openingBalance r = ((cfg.legacyOrders.filter (·.route = r)).map legacyNet).sum := by
  have walk : ∀ (items : List LegacyOrder) (balances : Balances),
      (((items.foldl (fun balances item =>
        if item.filledOunces = 0 ∧ item.allocatedOunces = 0 then balances
        else addBalance balances item.route
          (item.filledOunces * item.direction.sign - item.allocatedOunces)
          item.direction.view) balances).get? r).map Prod.fst).getD 0 =
        ((balances.get? r).map Prod.fst).getD 0 +
          ((items.filter (·.route = r)).map legacyNet).sum := by
    intro items
    induction items with
    | nil => simp
    | cons item items ih =>
      intro balances
      rw [List.foldl_cons, ih]
      by_cases idle : item.filledOunces = 0 ∧ item.allocatedOunces = 0
      · have none : legacyNet item = 0 := by simp [legacyNet, idle]
        rw [if_pos idle]
        by_cases hit : item.route = r <;> simp [hit, none]
      · rw [if_neg idle, get?_addBalance]
        by_cases hit : item.route = r
        · simp [hit, legacyNet]
          ring
        · simp [hit]
  have sorted := walk (cfg.legacyOrders.insertionSort legacyBefore) .empty
  rw [Dict.get?_empty] at sorted
  rw [openingBalance, checkpointBalances, sorted]
  have same := (List.perm_insertionSort legacyBefore cfg.legacyOrders).filter (·.route = r)
  simpa using (same.map legacyNet).sum_eq

/-- Every allocation is its route's balance so far and its own fill, rounded. -/
def Rounded (cfg : OwnerConfig) (items : List Allocation) : Prop :=
  ∀ (before : List Allocation) (item : Allocation) (after : List Allocation),
    items = before ++ item :: after → item.allocatedOunces =
      roundHedgeOunces (cfg.balanceAfter before item.route + item.signedFillOunces)

theorem rounded_allocations {legacy : List LegacyOrder} {t t' : Tally}
    (walked : Walked cfg b legacy [] t)
    {items : List Allocation} (loop : items.foldlM (cfg.checkAllocation b) t = .ok t') :
    Rounded cfg items := by
  rintro before item after rfl
  rw [List.foldlM_append, bind_eq_ok] at loop
  obtain ⟨reached, first, loop⟩ := loop
  simp only [List.foldlM_cons, bind_eq_ok] at loop
  obtain ⟨next, turn, -⟩ := loop
  have there := walked_allocations walked first
  have step := checkAllocation_eq_ok turn
  rw [step.rounded, there.balances]
  rfl

/-- What validation says of the allocations, beside their sums. -/
theorem rounded_of_validate (valid : cfg.validate b = .ok ()) :
    Rounded cfg b.allocations ∧ ∀ fill ∈ cfg.seenFills b,
      (∃ item ∈ cfg.legacyOrders, fill ∈ item.fillKeys) ∨
        ∃ item ∈ b.allocations, item.fillKey = fill := by
  obtain ⟨checkpoint, t, replayed⟩ := replayed_of_validate valid
  constructor
  · exact rounded_allocations replayed.legacy replayed.allocations
  · intro fill seen
    have walked := walked_allocations replayed.legacy replayed.allocations
    rw [← replayed.seen] at seen
    simpa using (walked.allocated fill).1 seen

end OwnerConfig

/-- What an order of a legacy state left unhedged, under its direction. -/
def unhedgedOf (direction : SourceDirection) (s : StoreState)
    (entry : String × SourceOrderRecord) : ℚ :=
  entry.2.filledOunces * direction.sign - ((intentsFor s entry.1).map Ledger.signedQuantity).sum

def directionResidual (direction : SourceDirection) (s : StoreState) (r : Route) : ℚ :=
  ((s.sourceOrders.entries.filter fun entry => route entry.2 = r).map (unhedgedOf direction s)).sum

/-- A route's residual in two legacy states. -/
def legacyResidual (bid ask : StoreState) (r : Route) : ℚ :=
  directionResidual .long bid r + directionResidual .short ask r

section Orders

variable {direction : SourceDirection} {s bid ask : StoreState} {orders : List LegacyOrder}

theorem isFraction_signed {intent : HedgeIntent} (written : intent.toIntentFields.Written) :
    Decimal.IsFraction (Ledger.signedQuantity intent) := by
  unfold Ledger.signedQuantity
  cases intent.hedgeSide
  · rw [BusinessOrderSide.hedgeSign, neg_one_mul]
    exact Decimal.isFraction_neg written.quantity
  · rw [BusinessOrderSide.hedgeSign, one_mul]
    exact written.quantity

/-- The orders of one direction, and what they sum to. -/
structure Ordered (direction : SourceDirection) (s : StoreState)
    (orders : List LegacyOrder) : Prop where
  net : (orders.map OwnerConfig.legacyNet).sum = s.netUnhedgedOunces
  residual : ∀ r, ((orders.filter (·.route = r)).map OwnerConfig.legacyNet).sum =
    directionResidual direction s r
  filled : ∀ item ∈ orders, Decimal.IsFraction item.filledOunces
  allocated : ∀ item ∈ orders, Decimal.IsFraction item.allocatedOunces
  fills : ∀ item ∈ orders, ∀ fill ∈ item.fillKeys, fill ∈ s.seenSourceFills

theorem directionOrders_eq_ok (written : s.Written)
    (read : directionOrders direction s = .ok orders) : Ordered direction s orders := by
  simp only [directionOrders, bind_unit_eq_ok, raiseIf_eq_ok, not_not, pure_eq_ok] at read
  obtain ⟨net, rfl⟩ := read
  have sorted := List.perm_insertionSort (fun a b : String × SourceOrderRecord => a.1 ≤ b.1)
    s.sourceOrders.entries
  have listed : ∀ item ∈ (s.sourceOrders.entries.insertionSort fun a b => a.1 ≤ b.1).map
      (legacyOrder direction s), ∃ entry ∈ s.sourceOrders.entries,
        item = legacyOrder direction s entry := by
    intro item member
    obtain ⟨entry, found, rfl⟩ := List.mem_map.1 member
    exact ⟨entry, sorted.mem_iff.1 found, rfl⟩
  constructor
  · exact net
  · intro r
    have same :=
      ((sorted.filter fun entry => route entry.2 = r).map (unhedgedOf direction s)).sum_eq
    rw [directionResidual, ← same, List.filter_map, List.map_map]
    rfl
  · intro item member
    obtain ⟨entry, found, rfl⟩ := listed item member
    exact (written.orders _ (List.mem_map_of_mem found)).filled
  · intro item member
    obtain ⟨entry, found, rfl⟩ := listed item member
    apply Decimal.isFraction_sum
    intro q summed
    obtain ⟨intent, held, rfl⟩ := List.mem_map.1 summed
    exact isFraction_signed (written.intents intent (List.mem_of_mem_filter held))
  · intro item member fill known
    obtain ⟨entry, found, rfl⟩ := listed item member
    have filtered := (Finset.mem_sort _).1 known
    exact (Finset.mem_filter.1 filtered).1

end Orders

section Inputs

variable {repr : Value → String} {loads : List UInt8 → Option Value} {sha256 : List UInt8 → String}
  {files : Files} {stem : String} {instruments : InstrumentBindings}

/-- What is read of a legacy state can be written. -/
theorem readStates_written {contents : List (List UInt8)} {bid ask : StoreState}
    (read : readStates repr loads instruments contents = .ok (bid, ask)) :
    bid.Written ∧ ask.Written := by
  simp only [readStates, bind_eq_ok] at read
  obtain ⟨raw, -, items, -, -, -, read⟩ := read
  split at read
  · simp only [orInvalid_eq_ok, bind_eq_ok, pure_eq_ok, Prod.mk.injEq] at read
    obtain ⟨_, ⟨_, -, first⟩, _, ⟨_, -, second⟩, rfl, rfl⟩ := read
    exact ⟨fromPayload_written first, fromPayload_written second⟩
  · cases read

theorem length_mapM {α β : Type} {f : α → Except Raised β} {xs : List α} {ys : List β}
    (read : xs.mapM f = .ok ys) : ys.length = xs.length := by
  induction xs generalizing ys with
  | nil =>
    cases read
    rfl
  | cons x xs ih =>
    simp only [List.mapM_cons, bind_eq_ok, pure_eq_ok] at read
    obtain ⟨_, -, rest, more, rfl⟩ := read
    simp [ih more]

/-- The paths a prefix is read from. -/
theorem inputPaths_eq_ok {paths : List String} (found : inputPaths files stem = .ok paths) :
    paths = [makerStatePath stem] ∨ paths = makerLegacyPaths stem := by
  unfold inputPaths at found
  split at found
  · simp only [pure_eq_ok] at found
    exact .inl found.symm
  · simp only [bind_unit_eq_ok, pure_eq_ok] at found
    exact .inr found.2.symm

theorem append_ne_empty (stem : String) {ending : String} (some : ending ≠ "") :
    stem ++ ending ≠ "" := by
  intro empty
  have letters := congrArg String.toList empty
  simp at letters
  exact some letters.2

theorem sources_written (hexdigest : ∀ content, isDigest (sha256 content)) {paths : List String}
    {contents : List (List UInt8)} (found : inputPaths files stem = .ok paths)
    (read : paths.mapM (readBytes files) = .ok contents) :
    SourcesWritten ((paths.zip contents).map fun input => (input.1, sha256 input.2)) := by
  have length := length_mapM read
  have first : ((paths.zip contents).map fun input => (input.1, sha256 input.2)).map Prod.fst =
      paths := by
    rw [List.map_map]
    exact List.map_fst_zip length.ge
  have count : paths.length = 1 ∨ paths.length = 2 := by
    obtain rfl | rfl := inputPaths_eq_ok found
    · exact .inl rfl
    · exact .inr rfl
  constructor
  · simpa [length] using count
  · rw [first]
    obtain rfl | rfl := inputPaths_eq_ok found
    · exact List.nodup_singleton _
    · simp [makerLegacyPaths]
  · intro source member
    have listed : source.1 ∈ paths := first ▸ List.mem_map_of_mem member
    obtain rfl | rfl := inputPaths_eq_ok found
    · obtain same := List.mem_singleton.1 listed
      rw [same]
      exact append_ne_empty _ (by decide)
    · obtain same | same := by simpa [makerLegacyPaths] using listed
      all_goals
        rw [same]
        exact append_ne_empty _ (by decide)
  · intro source member
    obtain ⟨input, -, rfl⟩ := List.mem_map.1 member
    exact hexdigest _

end Inputs

/-- An owner continues two legacy states. -/
structure Continues (repr : Value → String) (instruments : InstrumentBindings)
    (bid ask : StoreState) (owner : MakerStateStore) : Prop where
  valid : owner.cfg.validate owner.book = .ok ()
  reloads : openOwner repr (ownerArgs instruments)
    (owner.cfg.toPayload (ownerArgs instruments) owner.book) = .ok owner
  views : owner.cfg.viewKeys = [.bid, .ask]
  bids : owner.view .bid = bid.unowed
  asks : owner.view .ask = ask.unowed
  net : (owner.cfg.viewKeys.map (owner.cfg.viewNetUnhedged owner.book)).sum =
    (bid.netUnhedgedOunces + bid.hedgeIntents.total StoreState.outstanding) +
      (ask.netUnhedgedOunces + ask.hedgeIntents.total StoreState.outstanding)
  later : ∀ (digest : String → String) (o : MakerStateStore),
    Relation.ReflTransGen (OwnerStep digest) owner o →
      (∀ fill ∈ o.cfg.seenFills o.book, fill ∉ bid.seenSourceFills → fill ∉ ask.seenSourceFills →
        ∃ item ∈ o.book.allocations, item.fillKey = fill) ∧
      ∀ (before : List Allocation) (item : Allocation) (after : List Allocation),
        o.book.allocations = before ++ item :: after →
          item.allocatedOunces = roundHedgeOunces (legacyResidual bid ask item.route +
            ((before.filter (·.route = item.route)).map OwnerConfig.allocationNet).sum +
            item.signedFillOunces)

section Continue

variable {repr : Value → String} {loads : List UInt8 → Option Value} {sha256 : List UInt8 → String}
  {instruments : InstrumentBindings} {sources : List (String × String)} {bid ask : StoreState}
  {bids asks : List LegacyOrder}

theorem run_settled {digest : String → String} {cfg : OwnerConfig} {b : Book} {o : MakerStateStore}
    (valid : cfg.validate b = .ok ())
    (run : Relation.ReflTransGen (OwnerStep digest) ⟨cfg, b, b, false⟩ o) :
    OwnerReachable digest o ∧ o.cfg = cfg := by
  induction run with
  | refl => exact ⟨.start valid, rfl⟩
  | tail _ step ih =>
    obtain ⟨reached, same⟩ := ih
    exact ⟨reached.next step, (step_settled (reachable_settled reached) step).2.trans same⟩

theorem unowed_written {s : StoreState} (written : s.Written) : s.unowed.Written where
  orders := written.orders
  intents := written.intents
  net := Decimal.isFraction_zero
  retired := written.retired

theorem migratedOwner_written (named : SourcesWritten sources) (first : bid.Written)
    (second : ask.Written) (long : Ordered .long bid bids) (short : Ordered .short ask asks) :
    OwnerWritten (ownerArgs instruments)
      (migratedOwner instruments sources (bids ++ asks) bid ask).cfg
      (migratedOwner instruments sources (bids ++ asks) bid ask).book where
  config := rfl
  standalone := by
    intro shared
    cases shared
  unmigrated := by
    intro none
    cases none
  sources := by
    intro other found
    cases found
    exact named
  filled := by
    intro item member
    obtain bid | ask := List.mem_append.1 member
    · exact long.filled item bid
    · exact short.filled item ask
  allocated := by
    intro item member
    obtain bid | ask := List.mem_append.1 member
    · exact long.allocated item bid
    · exact short.allocated item ask
  signed := by
    intro item member
    cases member
  rounded := by
    intro item member
    cases member
  views := by
    intro v known
    obtain rfl | rfl := by simpa [OwnerConfig.viewKeys, migratedOwner, OwnerArgs.config,
      ownerArgs] using known
    · exact unowed_written first
    · exact unowed_written second
  absent := by
    intro v unknown
    cases v
    · exact absurd (OwnerConfig.direction_known _ .long) unknown
    · exact absurd (OwnerConfig.direction_known _ .short) unknown
    · rfl

theorem migratedOwner_continues (named : SourcesWritten sources) (first : bid.Written)
    (second : ask.Written) (long : Ordered .long bid bids) (short : Ordered .short ask asks)
    (valid : (migratedOwner instruments sources (bids ++ asks) bid ask).cfg.validate
      (migratedOwner instruments sources (bids ++ asks) bid ask).book = .ok ()) :
    Continues repr instruments bid ask
      (migratedOwner instruments sources (bids ++ asks) bid ask) where
  valid := valid
  reloads := by
    have loaded := @load_toPayload repr _ _ _ (@migratedOwner_written instruments _ _ _ _ _ named
      first second long short)
    simp only [openOwner, bind_eq_ok]
    exact ⟨_, loaded, (), valid, rfl⟩
  views := rfl
  bids := rfl
  asks := rfl
  net := by
    have legacy : ((bids ++ asks).map OwnerConfig.legacyNet).sum =
        bid.netUnhedgedOunces + ask.netUnhedgedOunces := by
      rw [List.map_append, List.sum_append, long.net, short.net]
    have residuals := OwnerConfig.sum_viewResidual
      (migratedOwner instruments sources (bids ++ asks) bid ask).cfg
      (migratedOwner instruments sources (bids ++ asks) bid ask).book
    have views : (migratedOwner instruments sources (bids ++ asks) bid ask).cfg.viewKeys =
        [.bid, .ask] := rfl
    have none : (migratedOwner instruments sources (bids ++ asks) bid ask).book.allocations = [] :=
      rfl
    have orders : (migratedOwner instruments sources (bids ++ asks) bid ask).cfg.legacyOrders =
        bids ++ asks := rfl
    have first : ((migratedOwner instruments sources (bids ++ asks) bid ask).book.views
        .bid).hedgeIntents = bid.hedgeIntents := rfl
    have second : ((migratedOwner instruments sources (bids ++ asks) bid ask).book.views
        .ask).hedgeIntents = ask.hedgeIntents := rfl
    rw [OwnerConfig.total_routeBalances, views, orders, none, legacy] at residuals
    simp only [List.map_cons, List.map_nil, List.sum_cons, List.sum_nil, add_zero] at residuals
    rw [views]
    simp only [List.map_cons, List.map_nil, List.sum_cons, List.sum_nil, add_zero,
      OwnerConfig.viewNetUnhedged, StoreState.netUnhedged, first, second]
    rw [add_add_add_comm, residuals]
    exact add_add_add_comm _ _ _ _
  later := by
    intro digest o run
    obtain ⟨reached, same⟩ := run_settled valid run
    obtain ⟨rounded, covered⟩ := OwnerConfig.rounded_of_validate (reachable_valid reached)
    constructor
    · intro fill seen notBid notAsk
      obtain ⟨item, legacy, known⟩ | later := covered fill seen
      · rw [same] at legacy
        obtain earlier | earlier := List.mem_append.1 legacy
        · exact absurd (long.fills item earlier fill known) notBid
        · exact absurd (short.fills item earlier fill known) notAsk
      · exact later
    · intro before item after split
      have opening : o.cfg.openingBalance item.route = legacyResidual bid ask item.route := by
        rw [OwnerConfig.openingBalance_eq, same]
        change (((bids ++ asks).filter (·.route = item.route)).map OwnerConfig.legacyNet).sum = _
        rw [List.filter_append, List.map_append, List.sum_append, long.residual, short.residual]
        rfl
      rw [rounded before item after split, OwnerConfig.balanceAfter, opening]

end Continue

section Migrate

variable {repr : Value → String} {loads : List UInt8 → Option Value} {sha256 : List UInt8 → String}

theorem check_ownerArgs {instruments : InstrumentBindings}
    (bound : ¬(instruments.sourceInstrumentId = "" ∨ instruments.hedgeInstrumentId = "")) :
    (ownerArgs instruments).check = .ok () := by
  simp only [OwnerArgs.check, bind_unit_eq_ok, raiseIf_eq_ok]
  exact ⟨bound, by simp [ownerArgs], by simp [ownerArgs], by simp [ownerArgs]⟩

/-- What is migrated continues the legacy states, and its file can hold it. -/
theorem migratedState_eq_ok (hexdigest : ∀ content, isDigest (sha256 content))
    {source destination : String} {instruments : InstrumentBindings} {stopped : Bool}
    {now later : Files} {owner : MakerStateStore}
    (accepted : migratedState repr loads sha256 source destination instruments stopped now later =
      .ok owner) :
    (∃ input bid ask, legacyStates repr loads now source instruments = .ok (input, bid, ask) ∧
      Continues repr instruments bid ask owner) ∧
    Filed (ownerArgs instruments) owner ∧ (ownerArgs instruments).check = .ok () := by
  unfold migratedState at accepted
  rw [bind_unit_eq_ok, bind_unit_eq_ok, bind_unit_eq_ok] at accepted
  obtain ⟨-, -, -, accepted⟩ := accepted
  rw [bind_eq_ok] at accepted
  obtain ⟨⟨⟨paths, contents⟩, bid, ask⟩, states, accepted⟩ := accepted
  simp only [bind_eq_ok, pure_eq_ok] at accepted
  obtain ⟨_, bound, orders, checkpoint, _, valid, _, -, _, -, _, -, _, -, _, -, rfl⟩ := accepted
  have read := states
  simp only [legacyStates, bind_eq_ok, pure_eq_ok, Prod.mk.injEq] at read
  obtain ⟨_, found, _, bytes, _, decoded, ⟨rfl, rfl⟩, rfl⟩ := read
  obtain ⟨first, second⟩ := readStates_written decoded
  simp only [checkpointOrders, bind_eq_ok, pure_eq_ok] at checkpoint
  obtain ⟨bids, long, asks, short, rfl⟩ := checkpoint
  have named := sources_written hexdigest found bytes
  have long := directionOrders_eq_ok first long
  have short := directionOrders_eq_ok second short
  refine ⟨⟨_, bid, ask, states, ?_⟩, ⟨⟨rfl, valid⟩, ?_⟩, ?_⟩
  · exact migratedOwner_continues named first second long short valid
  · exact migratedOwner_written named first second long short
  · exact check_ownerArgs (raiseIf_eq_ok.1 bound)

/-- What is migrated continues the legacy states and is what the destination opens to; what is
refused changes no file. -/
theorem maker_migration (hexdigest : ∀ content, isDigest (sha256 content))
    (floatText : Text → Text) (source destination : String) (instruments : InstrumentBindings)
    (stopped : Bool) (now later : Files) (pub : Publication) :
    let run := migrateMakerState repr loads sha256 source destination instruments stopped now later
      pub
    (∀ owner, run.1 = .ok owner →
      (∃ input bid ask, legacyStates repr loads now source instruments = .ok (input, bid, ask) ∧
        Continues repr instruments bid ask owner) ∧
      openAt repr floatText (ownerArgs instruments) run.2 destination =
        .ok ⟨owner.cfg, owner.book.ordered, owner.book.ordered, false⟩ ∧
      owner.book.ordered.Alike owner.book ∧
      ∀ path, path ≠ makerStatePath destination → run.2 path = later path) ∧
    ∀ e, run.1 = .error e → e ≠ .parentDirectorySyncError → run.2 = later := by
  unfold migrateMakerState
  dsimp only
  split
  · constructor
    · intro owner accepted
      cases accepted
    · exact fun _ _ _ => rfl
  · rename_i migrated accepted
    obtain ⟨continued, filed, checked⟩ := migratedState_eq_ok hexdigest accepted
    cases pub
    · constructor
      · intro owner same
        obtain rfl := Except.ok.inj same
        have opened := @openAt_publishOwner repr floatText (ownerArgs instruments) _ filed checked
          destination later
        exact ⟨continued, opened, migrated.book.ordered_alike,
          fun path other => publishOwner_other other⟩
      · intro e refused
        cases refused
    · constructor
      · intro owner accepted
        cases accepted
      · exact fun _ _ _ => rfl
    · constructor
      · intro owner accepted
        cases accepted
      · intro e refused other
        exact absurd (Except.error.inj refused).symm other

end Migrate

section Example

def asciiLoads (content : List UInt8) : Option Value :=
  ((fileHooks id).loads (content.map fun byte => Char.ofNat byte.toNat)).toOption

/-- A direction that hedges one ounce of a fill of 1.4. -/
def oldBid : StoreState := (JsonStateStore.empty.run id [
  .beginSource (sharedRequest "O-1"),
  .reserveSourceFill ⟨"O-1|V-1|T-1", "O-1", "T-1", .buy, 7 / 5⟩]).memory

/-- The file of a direction, under its old schema. -/
def oldContent (s : StoreState) : List UInt8 :=
  utf8 (dumpAscii id (.obj ((key "schema_version", .int 1) :: s.toPayload.tail)))

def oldFiles : Files := fun path =>
  if path = "old.bid.json" then some (.file (oldContent oldBid))
  else if path = "old.ask.json" then some (.file (oldContent .emptyState))
  else none

def oldDigest (content : List UInt8) : String :=
  if content = oldContent oldBid then
    "838b5632a25818bec58af9bf21d8b5d209331c83bff195ba092db24f52309a11"
  else "9b1aee0aee72433a33bd521ca65e0caf0ca883bb879ea4133e8765eb76a0c81d"

theorem oldDigest_hex (content : List UInt8) : isDigest (oldDigest content) := by
  unfold oldDigest
  split
  · simp [isDigest]
  · simp [isDigest]

def oldRun : Except Raised MakerStateStore × Files :=
  migrateMakerState (fun _ => "") asciiLoads oldDigest "old" "new" ⟨"XAUT", "XAU"⟩ true
    oldFiles oldFiles .published

theorem oldRun_accepted : oldRun.1.toBool = true := by decide +kernel

/-- The file at `new` opens to the owner the run gave. -/
theorem maker_migration_example : ∃ owner input bid ask, oldRun.1 = .ok owner ∧
    legacyStates (fun _ => "") asciiLoads oldFiles "old" ⟨"XAUT", "XAU"⟩ = .ok (input, bid, ask) ∧
    Continues (fun _ => "") ⟨"XAUT", "XAU"⟩ bid ask owner ∧
    openAt (fun _ => "") id (ownerArgs ⟨"XAUT", "XAU"⟩) oldRun.2 "new" =
      .ok ⟨owner.cfg, owner.book.ordered, owner.book.ordered, false⟩ := by
  have accepted := oldRun_accepted
  cases result : oldRun.1 with
  | error e =>
    rw [result] at accepted
    cases accepted
  | ok owner =>
    have whole := @maker_migration (fun _ => "") asciiLoads oldDigest oldDigest_hex id "old" "new"
      ⟨"XAUT", "XAU"⟩ true oldFiles oldFiles .published
    obtain ⟨⟨input, bid, ask, states, continued⟩, opened, -⟩ := whole.1 owner result
    exact ⟨owner, input, bid, ask, rfl, states, continued, opened⟩

end Example

end ArbNautilus.Store
