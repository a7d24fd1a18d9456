import ArbNautilus.Base.Evidence
import ArbNautilus.Bitfinex.CidRuns

namespace ArbNautilus.Bitfinex.Cids

open Base Handler
open Store (Publication)

section Source

/-- `_fee_trade_evidence`. Only an update of the venue has a final fee. -/
def feeTradeEvidence (execution : FeeTrade Decimal) (final : Option (Decimal × PyStr)) :
    FeeTrade Decimal :=
  { execution with rawFee := final.map Prod.fst, feeCurrency := final.map Prod.snd }

inductive ClientError
  | accounting (message : String)
  | execution (message : String)
deriving DecidableEq, Repr

/-- `_record_fee_trade`. A failed write is logged; a conflict is marked before it is raised. -/
def recordFeeTrade (outcome marking : Publication) (scope : FeeMetadata Decimal)
    (trade : FeeTrade Decimal) : Handler Process ClientError Unit := fun p =>
  match recordVenueTrade outcome scope trade p with
  | (.ok (), q) | (.error .osError, q) | (.error .parentDirectorySync, q) => (.ok (), q)
  | (.error (.feeConflict message), q) =>
    (.error (.accounting message), (markAccountingConflict marking).after q)
  | (.error (.cidError message), q) =>
    (.error (.execution message), (markAccountingConflict marking).after q)

end Source

section Reports

/-- A fill that was applied, or a trade of the venue, with its final fee if it has one. -/
inductive Evidence
  | native (fill : NativeFill Decimal)
  | venue (execution : FeeTrade Decimal) (final : Option (Decimal × PyStr))

structure Report where
  scope : FeeMetadata Decimal
  evidence : Evidence

def Report.record (r : Report) (outcome : Publication) : StoreCall Unit :=
  match r.evidence with
  | .native fill => recordNativeFill outcome r.scope fill
  | .venue execution final => recordVenueTrade outcome r.scope (feeTradeEvidence execution final)

/-- The process after these reports, each with what became of its write. -/
def record (p : Process) (reports : List (Report × Publication)) : Process :=
  reports.foldl (fun p r => (r.1.record r.2).after p) p

namespace CidStore

def fillsOf (s : CidStore) (cid : ℤ) : List (NativeFill ℚ) :=
  (s.feeMetadata.get? cid).elim [] (·.facts.nativeFills)

def tradesOf (s : CidStore) (cid : ℤ) : List (FeeTrade ℚ) :=
  (s.feeMetadata.get? cid).elim [] (·.facts.venueTrades)

end CidStore

def seenFills (reports : List Report) (cid : ℤ) : Set (NativeFill ℚ) :=
  {f | ∃ r ∈ reports, r.scope.cid = cid ∧ ∃ fill, r.evidence = .native fill ∧ fill.facts = f}

def seenTrades (reports : List Report) (cid : ℤ) : Set (FeeTrade ℚ) :=
  {t | ∃ r ∈ reports, r.scope.cid = cid ∧ ∃ execution final,
    r.evidence = .venue execution final ∧ (feeTradeEvidence execution final).facts = t}

/-- The trades that count: those with their final fee, and those whose fee is not known. -/
def settledTrades (reports : List Report) (cid : ℤ) : Set (FeeTrade ℚ) :=
  Best FeeTrade.tradeId (·.rawFee ≠ none) (seenTrades reports cid)

end Reports

section Writes

variable {p : Process} {outcome : Publication} {metadata : FeeMetadata Decimal}

/-- What a write of metadata leaves, whether or not it reaches the file. -/
structure Saved (p : Process) (metadata : FeeMetadata Decimal)
    (result : Except CidError Unit × Process) : Prop where
  raised : ∀ e, result.1 = .error e → e = .osError ∨ e = .parentDirectorySync
  held : ∃ held, result.2.store.feeMetadata.get? metadata.cid = some held ∧
    held.facts = metadata.facts
  others : ∀ cid, cid ≠ metadata.cid →
    result.2.store.feeMetadata.get? cid = p.store.feeMetadata.get? cid
  byCid : result.2.store.byCid = p.store.byCid

theorem persistAll_keeps (outcome : Publication) (p : Process) :
    (∀ e, (persistAll outcome p).1 = .error e → e = .osError ∨ e = .parentDirectorySync) ∧
      (persistAll outcome p).2.store.feeMetadata = p.store.feeMetadata ∧
      (persistAll outcome p).2.store.byCid = p.store.byCid := by
  cases outcome with
  | failed => exact ⟨fun e raised => .inl (Except.error.inj raised).symm, rfl, rfl⟩
  | published => exact ⟨nofun, rfl, rfl⟩
  | parentSyncFailed => exact ⟨fun e raised => .inr (Except.error.inj raised).symm, rfl, rfl⟩

theorem saveFeeMetadata_saved : Saved p metadata (saveFeeMetadata outcome metadata p) := by
  by_cases known : (p.store.feeMetadata.get? metadata.cid).map FeeMetadata.facts =
      some metadata.facts ∧ p.store.feesDurable = true
  · have kept : saveFeeMetadata outcome metadata p = (.ok (), p) := by
      change (ite _ _ _ : StoreCall Unit) p = _
      rw [if_pos known]
      rfl
    rw [kept]
    obtain ⟨held, found, same⟩ := Option.map_eq_some_iff.1 known.1
    exact ⟨nofun, ⟨held, found, same⟩, fun _ _ => rfl, rfl⟩
  · have changed : saveFeeMetadata outcome metadata p = persistAll outcome { p with
        store := { p.store with
          feeMetadata := p.store.feeMetadata.set metadata.cid metadata, feesDurable := false }
            } := by
      change (ite _ _ _ : StoreCall Unit) p = _
      rw [if_neg known]
      rfl
    obtain ⟨raised, fees, byCid⟩ := persistAll_keeps outcome { p with
        store := { p.store with
          feeMetadata := p.store.feeMetadata.set metadata.cid metadata, feesDurable := false } }
    rw [changed]
    refine ⟨raised, ⟨metadata, ?_, rfl⟩, fun cid other => ?_, byCid⟩
    · rw [fees]
      exact Dict.get?_set_self _ _ _
    · rw [fees]
      exact Dict.get?_set_of_ne _ (Ne.symm other) _

end Writes

section Merge

/-- The rows of the metadata have identities of their own. -/
structure FeeMetadata.Once (metadata : FeeMetadata Decimal) : Prop where
  fills : (metadata.nativeFills.map (·.tradeId)).Nodup
  trades : (metadata.venueTrades.map (·.tradeId)).Nodup

/-- Evidence that contradicts no row of the metadata. -/
def Agrees (current : FeeMetadata Decimal) : Evidence → Prop
  | .native fill => ∀ row ∈ current.nativeFills, row.tradeId = fill.tradeId → row.facts = fill.facts
  | .venue execution final => ∀ row ∈ current.venueTrades, row.tradeId = execution.tradeId →
    row.pending.facts = execution.pending.facts ∧
      (row.rawFee ≠ none → final ≠ none → row.facts = (feeTradeEvidence execution final).facts)

/-- How evidence is merged into the metadata: a final fee is there to stay. -/
def Merges (current : FeeMetadata Decimal) : Evidence → FeeMetadata Decimal → Prop
  | .native fill, merged => merged.venueTrades = current.venueTrades ∧
    ∀ f, f ∈ merged.facts.nativeFills ↔ f = fill.facts ∨ f ∈ current.facts.nativeFills
  | .venue execution final, merged => merged.nativeFills = current.nativeFills ∧
    ((∃ row ∈ current.venueTrades, row.tradeId = execution.tradeId ∧ row.rawFee ≠ none) ∧
        (∀ t, t ∈ merged.facts.venueTrades ↔ t ∈ current.facts.venueTrades) ∨
      (∀ row ∈ current.venueTrades, row.tradeId = execution.tradeId → row.rawFee = none) ∧
        ∀ t, t ∈ merged.facts.venueTrades ↔ t = (feeTradeEvidence execution final).facts ∨
          t ∈ current.facts.venueTrades ∧ t.tradeId ≠ execution.tradeId)

variable {p : Process} {outcome : Publication} {scope current : FeeMetadata Decimal}

theorem find?_key {α κ : Type} [DecidableEq κ] {f : α → κ} {l : List α} (once : (l.map f).Nodup)
    {a : α} (listed : a ∈ l) {key : κ} (named : f a = key) :
    l.find? (fun b => f b = key) = some a := by
  cases found : l.find? (fun b => f b = key) with
  | none => exact absurd named (by simpa using List.find?_eq_none.1 found a listed)
  | some b =>
    have same : f b = key := by simpa using List.find?_some found
    exact congrArg some (List.inj_on_of_nodup_map once (List.mem_of_find?_eq_some found) listed
      (same.trans named.symm))

theorem check_ok {α β : Type} {x : Except CidError α} {a : α} {next : α → StoreCall β}
    (h : x = .ok a) : (check x >>= next) p = next a p := by
  rw [h]
  rfl

theorem check_error {α β : Type} {x : Except CidError α} {e : CidError} {next : α → StoreCall β}
    (h : x = .error e) : (check x >>= next) p = (.error e, p) := by
  rw [h]
  rfl

/-- Evidence that agrees is merged and saved. -/
structure Merged (p : Process) (current : FeeMetadata Decimal) (evidence : Evidence)
    (result : Except CidError Unit × Process) : Prop where
  saved : ∃ merged, merged.scope = current.scope ∧ merged.Once ∧ Merges current evidence merged ∧
    Saved p merged result

theorem recordNativeFill_merged {fill : NativeFill Decimal} (once : current.Once)
    (known : p.store.feeScope scope = .ok current) (agrees : Agrees current (.native fill)) :
    Merged p current (.native fill) (recordNativeFill outcome scope fill p) := by
  change Merged p current (.native fill) ((check (p.store.feeScope scope) >>= _ : StoreCall Unit) p)
  rw [check_ok known]
  cases found : current.nativeFills.find? (·.tradeId = fill.tradeId) with
  | some previous =>
    have listed := List.mem_of_find?_eq_some found
    have same := agrees previous listed (by simpa using List.find?_some found)
    change Merged p current _ ((raiseWhen _ _ >>= _ : StoreCall Unit) p)
    rw [raiseWhen, if_neg (not_not.2 same)]
    refine ⟨current, rfl, once, ⟨rfl, fun f => ?_⟩, saveFeeMetadata_saved⟩
    constructor
    · exact .inr
    · rintro (rfl | old)
      · exact List.mem_map.2 ⟨previous, listed, same⟩
      · exact old
  | none =>
    have fresh : ∀ row ∈ current.nativeFills, row.tradeId ≠ fill.tradeId := by simpa using found
    refine ⟨{ current with nativeFills := current.nativeFills ++ [fill] }, rfl,
      ⟨?_, once.trades⟩, ⟨rfl, fun f => ?_⟩, saveFeeMetadata_saved⟩
    · rw [List.map_append, List.nodup_append]
      refine ⟨once.fills, by simp, ?_⟩
      intro id old id' new
      obtain ⟨row, member, rfl⟩ := List.mem_map.1 old
      obtain rfl : id' = fill.tradeId := by simpa using new
      exact fresh row member
    · simp only [FeeMetadata.facts, FeeMetadata.map, List.map_append, List.mem_append,
        List.map_cons, List.map_nil, List.mem_singleton]
      exact or_comm

theorem recordNativeFill_refuses {fill : NativeFill Decimal} (once : current.Once)
    (known : p.store.feeScope scope = .ok current) (clash : ¬Agrees current (.native fill)) :
    ∃ message, recordNativeFill outcome scope fill p = (.error (.cidError message), p) := by
  simp only [Agrees, not_forall] at clash
  obtain ⟨row, listed, named, different⟩ := clash
  refine ⟨"native fill changed its applied facts or origin", ?_⟩
  change (check (p.store.feeScope scope) >>= _ : StoreCall Unit) p = _
  rw [check_ok known, find?_key once.fills listed named]
  simp only [raiseWhen, if_pos different]
  rfl

theorem settledTrade_agrees {execution : FeeTrade Decimal} {final : Option (Decimal × PyStr)}
    {row : FeeTrade Decimal} (pending : row.pending.facts = execution.pending.facts)
    (fees : row.rawFee ≠ none → final ≠ none →
      row.facts = (feeTradeEvidence execution final).facts) :
    settledTrade (some row) (feeTradeEvidence execution final) =
      .ok (if row.rawFee.isSome then row else feeTradeEvidence execution final) := by
  have same : row.pending.facts = (feeTradeEvidence execution final).pending.facts := pending
  have agree : ¬(row.rawFee.isSome ∧ (feeTradeEvidence execution final).rawFee.isSome ∧
      row.facts ≠ (feeTradeEvidence execution final).facts) := by
    rintro ⟨mine, theirs, different⟩
    refine different (fees (by simpa [Option.isSome_iff_ne_none] using mine) ?_)
    rintro rfl
    cases theirs
  rw [settledTrade, raiseIf, if_neg (not_not.2 same), raiseIf, if_neg agree]
  rfl

theorem settledTrade_clash {execution : FeeTrade Decimal} {final : Option (Decimal × PyStr)}
    {row : FeeTrade Decimal} (clash : ¬(row.pending.facts = execution.pending.facts ∧
      (row.rawFee ≠ none → final ≠ none →
        row.facts = (feeTradeEvidence execution final).facts))) :
    ∃ e, settledTrade (some row) (feeTradeEvidence execution final) = .error e ∧
      e ≠ .osError ∧ e ≠ .parentDirectorySync := by
  by_cases pending : row.pending.facts = (feeTradeEvidence execution final).pending.facts
  · have fees : ¬(row.rawFee ≠ none → final ≠ none →
        row.facts = (feeTradeEvidence execution final).facts) := fun fees => clash ⟨pending, fees⟩
    simp only [not_forall] at fees
    obtain ⟨mine, theirs, different⟩ := fees
    refine ⟨.feeConflict "Bitfinex trade ID changed its final fee facts", ?_, (by rintro ⟨⟩),
      (by rintro ⟨⟩)⟩
    have both : row.rawFee.isSome ∧ (feeTradeEvidence execution final).rawFee.isSome ∧
        row.facts ≠ (feeTradeEvidence execution final).facts := by
      refine ⟨Option.isSome_iff_ne_none.2 mine, ?_, different⟩
      rw [feeTradeEvidence, Option.isSome_map]
      exact Option.isSome_iff_ne_none.2 theirs
    rw [settledTrade, raiseIf, if_neg (not_not.2 pending), raiseIf, if_pos both]
    rfl
  · refine ⟨.cidError "Bitfinex trade ID changed its execution facts or fee", ?_, (by rintro ⟨⟩),
      (by rintro ⟨⟩)⟩
    rw [settledTrade, raiseIf, if_pos pending]
    rfl

theorem mem_rows_set {rows : List (FeeTrade Decimal)} (once : (rows.map (·.tradeId)).Nodup)
    {settled row : FeeTrade Decimal} :
    row ∈ ((Dict.ofList (rows.map fun row => (row.tradeId, row))).set settled.tradeId
        settled).values ↔
      row = settled ∨ row ∈ rows ∧ row.tradeId ≠ settled.tradeId := by
  have entries : (Dict.ofList (rows.map fun row => (row.tradeId, row))).entries =
      rows.map fun row => (row.tradeId, row) := by
    apply Dict.entries_ofList_of_nodup
    rwa [List.map_map]
  simp only [Dict.mem_values_iff, Dict.get?_set]
  constructor
  · rintro ⟨key, held⟩
    split at held
    · exact .inl (Option.some.inj held).symm
    · rename_i other
      rw [← Dict.mem_entries_iff, entries, List.mem_map] at held
      obtain ⟨_, listed, same⟩ := held
      cases same
      exact .inr ⟨listed, Ne.symm other⟩
  · rintro (rfl | ⟨listed, other⟩)
    · exact ⟨row.tradeId, if_pos rfl⟩
    · refine ⟨row.tradeId, ?_⟩
      rw [if_neg other.symm, ← Dict.mem_entries_iff, entries]
      exact List.mem_map.2 ⟨row, listed, rfl⟩

theorem rows_set_once {rows : List (FeeTrade Decimal)} {settled : FeeTrade Decimal} :
    (((Dict.ofList (rows.map fun row => (row.tradeId, row))).set settled.tradeId
      settled).values.map (·.tradeId)).Nodup := by
  apply CidStore.nodup_of_keys
  intro key row held
  rw [Dict.get?_set] at held
  split at held
  · rename_i same
    rw [← Option.some.inj held]
    exact same
  · obtain ⟨_, -, same⟩ := List.mem_map.1 (Dict.mem_of_get?_ofList held)
    cases same
    rfl

/-- What the merge settles on: the row with its final fee, or else the evidence. -/
theorem settledTrade_cases {execution : FeeTrade Decimal} {final : Option (Decimal × PyStr)}
    (once : current.Once) (agrees : Agrees current (.venue execution final)) :
    ∃ settled, settledTrade (current.venueTrades.find? (·.tradeId = execution.tradeId))
        (feeTradeEvidence execution final) = .ok settled ∧
      (settled ∈ current.venueTrades ∧ settled.tradeId = execution.tradeId ∧ settled.rawFee ≠ none ∨
        (∀ row ∈ current.venueTrades, row.tradeId = execution.tradeId → row.rawFee = none) ∧
          settled = feeTradeEvidence execution final) := by
  cases found : current.venueTrades.find? (·.tradeId = execution.tradeId) with
  | none =>
    have fresh : ∀ row ∈ current.venueTrades, row.tradeId ≠ execution.tradeId := by
      simpa using found
    exact ⟨_, rfl, .inr ⟨fun row listed named => absurd named (fresh row listed), rfl⟩⟩
  | some previous =>
    have listed := List.mem_of_find?_eq_some found
    have named : previous.tradeId = execution.tradeId := by simpa using List.find?_some found
    obtain ⟨pending, fees⟩ := agrees previous listed named
    refine ⟨_, settledTrade_agrees pending fees, ?_⟩
    by_cases final : previous.rawFee.isSome
    · rw [if_pos final]
      exact .inl ⟨listed, named, Option.isSome_iff_ne_none.1 final⟩
    · rw [if_neg final]
      refine .inr ⟨fun row other same => ?_, rfl⟩
      rw [List.inj_on_of_nodup_map once.trades other listed (same.trans named.symm)]
      simpa using final

theorem recordVenueTrade_merged {execution : FeeTrade Decimal} {final : Option (Decimal × PyStr)}
    (once : current.Once) (known : p.store.feeScope scope = .ok current)
    (agrees : Agrees current (.venue execution final)) :
    Merged p current (.venue execution final)
      (recordVenueTrade outcome scope (feeTradeEvidence execution final) p) := by
  change Merged p current _ ((check (p.store.feeScope scope) >>= _ : StoreCall Unit) p)
  rw [check_ok known]
  obtain ⟨settled, kept, final⟩ := settledTrade_cases once agrees
  change Merged p current _ ((check (settledTrade (current.venueTrades.find?
    (·.tradeId = execution.tradeId)) _) >>= _ : StoreCall Unit) p)
  rw [check_ok kept]
  refine ⟨{ current with venueTrades := ((Dict.ofList (current.venueTrades.map fun row =>
    (row.tradeId, row))).set settled.tradeId settled).values }, rfl, ⟨once.fills, rows_set_once⟩,
    ⟨rfl, ?_⟩, saveFeeMetadata_saved⟩
  simp only [FeeMetadata.facts, FeeMetadata.map, List.mem_map, mem_rows_set once.trades]
  obtain ⟨listed, named, fee⟩ | ⟨unsure, rfl⟩ := final
  · refine .inl ⟨⟨settled, listed, named, fee⟩, fun t => exists_congr fun row => ?_⟩
    refine and_congr_left fun _ => ⟨?_, fun member => ?_⟩
    · rintro (rfl | ⟨member, -⟩)
      · exact listed
      · exact member
    · by_cases same : row.tradeId = settled.tradeId
      · exact .inl (List.inj_on_of_nodup_map once.trades member listed same)
      · exact .inr ⟨member, same⟩
  · refine .inr ⟨unsure, fun t => ?_⟩
    constructor
    · rintro ⟨row, rfl | ⟨member, other⟩, rfl⟩
      · exact .inl rfl
      · exact .inr ⟨⟨row, member, rfl⟩, other⟩
    · rintro (rfl | ⟨⟨row, member, rfl⟩, other⟩)
      · exact ⟨_, .inl rfl, rfl⟩
      · exact ⟨row, .inr ⟨member, other⟩, rfl⟩

theorem recordVenueTrade_refuses {execution : FeeTrade Decimal} {final : Option (Decimal × PyStr)}
    (once : current.Once) (known : p.store.feeScope scope = .ok current)
    (clash : ¬Agrees current (.venue execution final)) :
    ∃ e, recordVenueTrade outcome scope (feeTradeEvidence execution final) p = (.error e, p) ∧
      e ≠ .osError ∧ e ≠ .parentDirectorySync := by
  simp only [Agrees, not_forall] at clash
  obtain ⟨row, listed, named, different⟩ := clash
  obtain ⟨e, raised, other⟩ := settledTrade_clash different
  refine ⟨e, ?_, other⟩
  change (check (p.store.feeScope scope) >>= _ : StoreCall Unit) p = _
  rw [check_ok known]
  change (check (settledTrade (current.venueTrades.find? (·.tradeId = execution.tradeId)) _) >>= _
    : StoreCall Unit) p = _
  rw [find?_key once.trades listed named, check_error raised]

end Merge

section Recording

variable {p : Process} {outcome : Publication} {r : Report} {current : FeeMetadata Decimal}

theorem record_merged (once : current.Once) (known : p.store.feeScope r.scope = .ok current)
    (agrees : Agrees current r.evidence) : Merged p current r.evidence (r.record outcome p) := by
  obtain ⟨scope, evidence⟩ := r
  cases evidence with
  | native fill => exact recordNativeFill_merged once known agrees
  | venue execution final => exact recordVenueTrade_merged once known agrees

/-- An error of the evidence, not of the file. -/
def Refuses (p : Process) (result : Except CidError Unit × Process) : Prop :=
  ∃ e, result = (.error e, p) ∧ e ≠ .osError ∧ e ≠ .parentDirectorySync

theorem record_clash (once : current.Once) (known : p.store.feeScope r.scope = .ok current)
    (clash : ¬Agrees current r.evidence) : Refuses p (r.record outcome p) := by
  obtain ⟨scope, evidence⟩ := r
  cases evidence with
  | native fill =>
    obtain ⟨message, raised⟩ := recordNativeFill_refuses once known clash
    exact ⟨_, raised, nofun, nofun⟩
  | venue execution final => exact recordVenueTrade_refuses once known clash

theorem record_misscoped {e : CidError} (unknown : p.store.feeScope r.scope = .error e) :
    Refuses p (r.record outcome p) := by
  have never (e : CidError) (other : ∀ message, .cidError message ≠ e) :
      Never e (p.store.feeScope r.scope) :=
    never_bind (never_raiseIf (other _)) fun _ => never_bind (never_raiseIf (other _))
      fun _ => never_pure _
  have kind : e ≠ .osError ∧ e ≠ .parentDirectorySync := by
    constructor
    · rintro rfl
      exact never .osError nofun unknown
    · rintro rfl
      exact never .parentDirectorySync nofun unknown
  refine ⟨e, ?_, kind⟩
  obtain ⟨scope, evidence⟩ := r
  cases evidence with
  | native fill =>
    change (check (p.store.feeScope scope) >>= _ : StoreCall Unit) p = _
    exact check_error unknown
  | venue execution final =>
    change (check (p.store.feeScope scope) >>= _ : StoreCall Unit) p = _
    exact check_error unknown

def FeesOnce (s : CidStore) : Prop :=
  ∀ cid metadata, s.feeMetadata.get? cid = some metadata → metadata.Once

theorem CidStore.Valid.feesOnce {s : CidStore} (valid : s.Valid) : FeesOnce s :=
  fun _ _ held => ⟨(valid.fees.valid held).fillsOnce, (valid.fees.valid held).tradesOnce⟩

theorem FeesOnce.ofScope {s : CidStore} {scope : FeeMetadata Decimal} (once : FeesOnce s)
    (known : s.feeScope scope = .ok current) : current.Once := by
  obtain ⟨-, fills, trades, rfl, -⟩ := CidStore.feeScope_eq_ok known
  cases held : s.feeMetadata.get? scope.cid with
  | none => exact ⟨by simp [fills], by simp [trades]⟩
  | some metadata => exact once _ metadata held

theorem record_cases (r : Report) (outcome : Publication) (once : FeesOnce p.store) :
    Refuses p (r.record outcome p) ∨ ∃ current, p.store.feeScope r.scope = .ok current ∧
      Agrees current r.evidence ∧ Merged p current r.evidence (r.record outcome p) := by
  cases known : p.store.feeScope r.scope with
  | error e => exact .inl (record_misscoped known)
  | ok current =>
    by_cases agrees : Agrees current r.evidence
    · exact .inr ⟨current, rfl, agrees, record_merged (once.ofScope known) known agrees⟩
    · exact .inl (record_clash (once.ofScope known) known agrees)

theorem FeeMetadata.Once.of_facts {metadata other : FeeMetadata Decimal} (once : metadata.Once)
    (same : other.facts = metadata.facts) : other.Once := by
  have fills := congrArg (fun m => m.nativeFills.map (·.tradeId)) same
  have trades := congrArg (fun m => m.venueTrades.map (·.tradeId)) same
  simp only [FeeMetadata.facts, FeeMetadata.map, List.map_map] at fills trades
  exact ⟨fills ▸ once.fills, trades ▸ once.trades⟩

theorem Refuses.after (refuses : Refuses p (r.record outcome p)) :
    (r.record outcome).after p = p := by
  obtain ⟨e, raised, -⟩ := refuses
  rw [Handler.after, raised]

theorem FeesOnce.recorded (once : FeesOnce p.store) :
    FeesOnce ((r.record outcome).after p).store := by
  obtain refuses | ⟨current, known, -, ⟨merged, -, unique, -, saved⟩⟩ :=
    record_cases r outcome once
  · rw [refuses.after]
    exact once
  · intro cid metadata held
    by_cases here : cid = merged.cid
    · obtain ⟨stored, found, same⟩ := saved.held
      rw [here] at held
      obtain rfl : stored = metadata := Option.some.inj (found.symm.trans held)
      exact unique.of_facts same
    · exact once cid metadata ((saved.others cid here).symm.trans held)

end Recording

section Kept

variable {p : Process} {outcome marking : Publication} {r : Report} {cid : ℤ}

theorem mem_tradesOf {s : CidStore} {t : FeeTrade ℚ} : t ∈ s.tradesOf cid ↔
    ∃ metadata, s.feeMetadata.get? cid = some metadata ∧ t ∈ metadata.facts.venueTrades := by
  unfold CidStore.tradesOf
  cases s.feeMetadata.get? cid <;> simp

theorem mem_fillsOf {s : CidStore} {f : NativeFill ℚ} : f ∈ s.fillsOf cid ↔
    ∃ metadata, s.feeMetadata.get? cid = some metadata ∧ f ∈ metadata.facts.nativeFills := by
  unfold CidStore.fillsOf
  cases s.feeMetadata.get? cid <;> simp

/-- No report replaces a final fee. -/
theorem Merges.keeps_final {current merged : FeeMetadata Decimal} {evidence : Evidence}
    (merges : Merges current evidence merged) {t : FeeTrade ℚ}
    (listed : t ∈ current.facts.venueTrades)
    (final : t.rawFee ≠ none) : t ∈ merged.facts.venueTrades := by
  cases evidence with
  | native fill =>
    have same : merged.facts.venueTrades = current.facts.venueTrades :=
      congrArg (List.map (FeeTrade.map Decimal.value)) merges.1
    rwa [same]
  | venue execution fee =>
    obtain ⟨-, kept⟩ | ⟨unsure, kept⟩ := merges.2
    · exact (kept t).2 listed
    · refine (kept t).2 (.inr ⟨listed, fun same => final ?_⟩)
      obtain ⟨row, member, rfl⟩ := List.mem_map.1 listed
      have open' := unsure row member same
      change row.rawFee.map Decimal.value = none
      rw [open']
      rfl

theorem final_kept (once : FeesOnce p.store) {t : FeeTrade ℚ} (listed : t ∈ p.store.tradesOf cid)
    (final : t.rawFee ≠ none) : t ∈ ((r.record outcome).after p).store.tradesOf cid := by
  obtain refuses | ⟨current, known, -, ⟨merged, scope, -, merges, saved⟩⟩ :=
    record_cases r outcome once
  · rwa [refuses.after]
  · obtain ⟨-, -, -, rfl, own, -⟩ := CidStore.feeScope_eq_ok known
    obtain ⟨metadata, held, member⟩ := mem_tradesOf.1 listed
    have named : merged.cid = r.scope.cid :=
      (congrArg FeeMetadata.cid scope).trans (congrArg FeeMetadata.cid own)
    by_cases here : cid = merged.cid
    · obtain ⟨stored, found, same⟩ := saved.held
      rw [named] at here
      rw [here] at held
      rw [held] at merges
      refine mem_tradesOf.2 ⟨stored, by rw [here, ← named]; exact found, ?_⟩
      rw [same]
      exact merges.keeps_final member final
    · exact mem_tradesOf.2 ⟨metadata, (saved.others cid here).trans held, member⟩

/-- Evidence against what is recorded of the order. -/
def Contradicts (s : CidStore) (r : Report) : Prop :=
  match r.evidence with
  | .native fill => ∃ f ∈ s.fillsOf r.scope.cid, f.tradeId = fill.tradeId ∧ f ≠ fill.facts
  | .venue execution final => ∃ t ∈ s.tradesOf r.scope.cid, t.tradeId = execution.tradeId ∧
    (t.pending ≠ execution.pending.facts ∨
      t.rawFee ≠ none ∧ final ≠ none ∧ t ≠ (feeTradeEvidence execution final).facts)

theorem contradicts_refuses (once : FeesOnce p.store) (against : Contradicts p.store r) :
    Refuses p (r.record outcome p) := by
  cases known : p.store.feeScope r.scope with
  | error e => exact record_misscoped known
  | ok current =>
    refine record_clash (once.ofScope known) known fun agrees => ?_
    obtain ⟨-, -, -, rfl, -⟩ := CidStore.feeScope_eq_ok known
    obtain ⟨scope, evidence⟩ := r
    cases evidence with
    | native fill =>
      obtain ⟨f, listed, named, different⟩ := against
      obtain ⟨metadata, held, member⟩ := mem_fillsOf.1 listed
      obtain ⟨row, stored, rfl⟩ := List.mem_map.1 member
      rw [held] at agrees
      exact different (agrees row stored named)
    | venue execution final =>
      obtain ⟨t, listed, named, different⟩ := against
      obtain ⟨metadata, held, member⟩ := mem_tradesOf.1 listed
      obtain ⟨row, stored, rfl⟩ := List.mem_map.1 member
      rw [held] at agrees
      obtain ⟨pending, fees⟩ := agrees row stored named
      obtain changed | ⟨mine, theirs, changed⟩ := different
      · exact changed pending
      · refine changed (fees (fun none => mine ?_) theirs)
        change row.rawFee.map Decimal.value = _
        rw [none]
        rfl

/-- The client turns the contradiction into a conflict that it marks. -/
theorem contradicts_raises (outcome marking : Publication) {scope execution}
    {final : Option (Decimal × PyStr)} (once : FeesOnce p.store)
    (against : Contradicts p.store ⟨scope, .venue execution final⟩) :
    ∃ e, (recordFeeTrade outcome marking scope (feeTradeEvidence execution final) p).1 = .error e ∧
      (recordFeeTrade outcome marking scope (feeTradeEvidence execution final)
        p).2.store.feeMetadata =
        p.store.feeMetadata := by
  obtain ⟨e, raised, io, sync⟩ :
      Refuses p (Report.record ⟨scope, .venue execution final⟩ outcome p) :=
    contradicts_refuses once against
  have fees : ((markAccountingConflict marking).after p).store.feeMetadata =
      p.store.feeMetadata := by
    by_cases known : p.store.accountingConflict = true ∧ p.store.feesDurable = true
    · change ((ite _ _ _ : StoreCall Unit) p).2.store.feeMetadata = _
      rw [if_pos known]
      rfl
    · change ((ite _ _ _ : StoreCall Unit) p).2.store.feeMetadata = _
      rw [if_neg known]
      exact (persistAll_keeps marking _).2.1
  have trade : recordVenueTrade outcome scope (feeTradeEvidence execution final) p =
      (.error e, p) :=
    raised
  unfold recordFeeTrade
  rw [trade]
  cases e with
  | cidError message => exact ⟨_, rfl, fees⟩
  | feeConflict message => exact ⟨_, rfl, fees⟩
  | parentDirectorySync => exact absurd rfl sync
  | osError => exact absurd rfl io

end Kept

end ArbNautilus.Bitfinex.Cids
