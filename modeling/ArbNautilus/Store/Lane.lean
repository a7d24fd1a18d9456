import ArbNautilus.Base.Precedes
import ArbNautilus.Store.Conservation
import ArbNautilus.Store.Dispatch

namespace ArbNautilus.Store

open Base

/-- A shared owner, beside the legs its strategies were handed and have yet to bind. -/
structure Lane where
  owner : MakerStateStore
  legs : List (ViewKey × String)

/-- The calls outside a dispatch attempt. -/
def StoreOp.Unbinding : StoreOp → Prop
  | .bindHedgeOrder _ _ | .bindHedgePlan _ _ => False
  | _ => True

/-- Maker and Taker dispatch attempts, interleaved with every other call and with restarts. -/
inductive LaneStep (digest : String → String) : Lane → Lane → Prop where
  | call (l : Lane) (v : ViewKey) {op : StoreOp} (pub : Publication) (plain : op.Unbinding) :
      LaneStep digest l ⟨(l.owner.callView digest v pub op).2, l.legs⟩
  | freeze (l : Lane) (reason : String) (pub : Publication) :
      LaneStep digest l ⟨(l.owner.freezeExternal pub reason l.owner.cfg.viewKeys).2, l.legs⟩
  | next (l : Lane) (v : ViewKey) (intentId : String) (positions : List Position)
      (planned blocked : Publication) {leg : HedgeLeg} {o : MakerStateStore}
      (given : l.owner.nextHedgeLeg v intentId positions planned blocked = (.ok leg, o)) :
      LaneStep digest l ⟨o, l.legs ++ [(v, intentId)]⟩
  | refused (l : Lane) (v : ViewKey) (intentId : String) (positions : List Position)
      (planned blocked : Publication) {e : Raised} {o : MakerStateStore}
      (failed : l.owner.nextHedgeLeg v intentId positions planned blocked = (.error e, o)) :
      LaneStep digest l ⟨o, l.legs⟩
  | bind (l : Lane) {v : ViewKey} {intentId : String} (clientOrderId : String) (pub : Publication)
      (given : (v, intentId) ∈ l.legs) :
      LaneStep digest l ⟨(l.owner.bindHedgeLeg v intentId clientOrderId pub).2,
        l.legs.erase (v, intentId)⟩
  | restart (l : Lane) :
      LaneStep digest l ⟨⟨l.owner.cfg, l.owner.committed, l.owner.committed, false⟩, []⟩

inductive LaneReachable (digest : String → String) : Lane → Prop where
  | start {cfg : OwnerConfig} (shared : cfg.sharedStrategyIds.isSome)
      (valid : cfg.validate .empty = .ok ()) :
        LaneReachable digest ⟨⟨cfg, .empty, .empty, false⟩, []⟩
  | next {l l' : Lane} : LaneReachable digest l → LaneStep digest l l' → LaneReachable digest l'

namespace Book

def Holds (b : Book) (v : ViewKey) (k : String) (intent : HedgeIntent) : Prop :=
  (b.views v).hedgeIntents.get? k = some intent

/-- The fills in the order of their allocations. -/
def fillKeys (b : Book) : List String := b.allocations.map (·.fillKey)

/-- Every intent of an earlier allocation is completed. -/
def Cleared (b : Book) (fillKey : String) : Prop :=
  ∀ v k intent, b.Holds v k intent → Precedes b.fillKeys intent.fillKey fillKey →
    intent.status = .completed

/-- What the lane promises: one unresolved order, in allocation order. -/
structure Exclusive (b : Book) : Prop where
  one : ∀ v k intent v' k' other, b.Holds v k intent → b.Holds v' k' other →
    intent.hedgeClientOrderId ≠ none → intent.status ≠ .completed →
    other.hedgeClientOrderId ≠ none → other.status ≠ .completed → v = v' ∧ k = k'
  recorded : ∀ v k intent order, b.Holds v k intent → intent.hedgeClientOrderId = some order →
    order ∈ intent.hedgeOrderIds
  ordered : ∀ v k intent, b.Holds v k intent → intent.hedgeOrderIds ≠ [] → b.Cleared intent.fillKey

/-- One book whose intents all moved into another's, with nothing allocated. -/
structure Moves (b b' : Book) : Prop where
  allocations : b'.allocations = b.allocations
  views : ∀ v, Store.Moves (b.views v) (b'.views v)

def Regular (b : Book) : Prop := ∀ v, AllRegular (b.views v)

theorem Moves.refl {b : Book} (h : b.Regular) : b.Moves b := ⟨rfl, fun v => .of_eq (h v) rfl⟩

theorem Moves.trans {b c d : Book} (first : b.Moves c) (second : c.Moves d) : b.Moves d :=
  ⟨second.allocations.trans first.allocations, fun v => (first.views v).trans (second.views v)⟩

theorem Moves.regular {b b' : Book} (h : b.Moves b') : b'.Regular := fun v => (h.views v).regular

theorem Moves.fillKeys {b b' : Book} (h : b.Moves b') : b'.fillKeys = b.fillKeys := by
  rw [Book.fillKeys, h.allocations, Book.fillKeys]

/-- What was cleared stays cleared: completion is final. -/
theorem Moves.cleared {b b' : Book} (h : b.Moves b') {fillKey : String}
    (cleared : b.Cleared fillKey) : b'.Cleared fillKey := by
  intro v k moved held earlier
  obtain ⟨intent, before, step⟩ := (h.views v).back held
  rw [h.fillKeys, step.key] at earlier
  exact step.final (cleared v k intent before earlier)

end Book

namespace MakerStateStore

variable {o : MakerStateStore}

theorem persist_book (o : MakerStateStore) (pub : Publication) :
    (o.persist pub).2.book = o.committed ∨ (o.persist pub).2.book = o.candidate.book := by
  obtain ⟨committed, -⟩ := o.candidate_committed
  unfold persist
  dsimp only
  split
  · exact .inl committed
  · cases pub
    · exact .inr rfl
    · exact .inl committed
    · exact .inr rfl

theorem candidate_moves {b : Book} (h : b.Moves o.book) : b.Moves o.candidate.book := by
  unfold candidate
  split
  · exact ⟨h.allocations, h.views⟩
  · exact h

/-- Whatever becomes of a publication, the memory moved on or fell back. -/
theorem persist_moves {b : Book} (h : b.Moves o.book) (regular : b.Regular)
    (same : b = o.committed) (pub : Publication) : b.Moves (o.persist pub).2.book := by
  rcases o.persist_book pub with back | on
  · rw [back, ← same]; exact .refl regular
  · rw [on]; exact candidate_moves h

theorem setView_moves (regular : o.book.Regular) {v : ViewKey} {t : StoreState}
    (step : Moves (o.view v) t) : o.book.Moves (o.setView v t).book := by
  refine ⟨rfl, fun v' => ?_⟩
  by_cases here : v' = v
  · subst here
    simpa [setView, Book.setView, view] using step
  · simpa [setView, Book.setView, here] using Moves.of_eq (regular v') rfl

/-- A change on one view reaches the book as it is, or leaves the book alone. -/
theorem commitView_book {α : Type} (settled : Settled o) (v : ViewKey) (pub : Publication)
    (c : Change StoreState α) : (o.commitView v pub c).2.book = o.book ∨
      ∃ t, c.Yields t ∧ (o.commitView v pub c).2.book.views = (o.setView v t).book.views ∧
        (o.commitView v pub c).2.book.allocations = o.book.allocations := by
  have stored : ∀ t, ((o.setView v t).persist pub).2.book = o.book ∨
      ((o.setView v t).persist pub).2.book.views = (o.setView v t).book.views ∧
        ((o.setView v t).persist pub).2.book.allocations = o.book.allocations := by
    intro t
    rcases (o.setView v t).persist_book pub with back | on
    · exact .inl (back.trans settled.same.symm)
    · right
      rw [on]
      unfold candidate
      split <;> exact ⟨rfl, rfl⟩
  cases c with
  | raises => exact .inl rfl
  | keeps => exact .inl rfl
  | publishes t a =>
    have reached := stored t
    unfold commitView
    dsimp only
    split <;> rename_i result <;> rw [result] at reached <;>
      exact reached.imp_right fun on => ⟨t, .publishes t a, on⟩
  | reserves t a =>
    have reached := stored t
    unfold commitView
    dsimp only
    split <;> rename_i result
    · rw [result] at reached
      exact reached.imp_right fun on => ⟨t, .reserves t a, on⟩
    · split
      · rw [result] at reached
        exact reached.imp_right fun on => ⟨t, .reserves t a, on⟩
      · rename_i other
        have taken := persist_restores (congrArg Prod.fst result) other
        rw [result] at taken
        left
        rw [setView_committed (settled.same.trans taken.symm)]
        exact taken.trans settled.same.symm

theorem commitView_moves {α : Type} (settled : Settled o) (regular : o.book.Regular) {v : ViewKey}
    (pub : Publication) {c : Change StoreState α}
    (step : ∀ t, c.Yields t → Moves (o.view v) t) :
    o.book.Moves (o.commitView v pub c).2.book := by
  rcases commitView_book settled v pub c with same | ⟨t, yields, views, allocations⟩
  · rw [same]; exact .refl regular
  · have moved := setView_moves regular (step t yields)
    exact ⟨allocations, fun v' => views ▸ moved.views v'⟩

/-- A change of the freezes alone moves nothing. -/
theorem freezes_moves (regular : o.book.Regular) {b : Book}
    (allocations : b.allocations = o.book.allocations)
    (intents : ∀ v, (b.views v).hedgeIntents = (o.view v).hedgeIntents) : o.book.Moves b :=
  ⟨allocations, fun v => .of_eq (regular v) (intents v)⟩

theorem setFreezes_intents (o : MakerStateStore) (reason : String) (views : List ViewKey)
    (v : ViewKey) :
    (((o.setFreezes reason views).book).views v).hedgeIntents = (o.view v).hedgeIntents := by
  simp only [setFreezes, setBook]
  split <;> rfl

theorem freezeExternal_moves (settled : Settled o) (regular : o.book.Regular) (pub : Publication)
    (reason : String) (views : List ViewKey) :
    o.book.Moves (o.freezeExternal pub reason views).2.book := by
  unfold freezeExternal
  split
  · exact .refl regular
  · split
    · have frozen : o.book.Moves ((o.setFreezes reason views).setBook
          { (o.setFreezes reason views).book with cycleFreezeOnly := false }).book :=
        freezes_moves regular rfl (setFreezes_intents o reason views)
      have moved := persist_moves frozen regular settled.same pub
      dsimp only
      split <;> rename_i result <;> rw [result] at moved <;> exact moved
    · exact .refl regular

theorem clearSourceFreezes_moves (settled : Settled o) (regular : o.book.Regular)
    (pub : Publication) : o.book.Moves (o.clearSourceFreezes pub).2.book := by
  unfold clearSourceFreezes
  split
  · exact .refl regular
  · have thawed : o.book.Moves (o.setBook { o.book with
        views := fun v => freezeView (o.view v) none
        cycleFreezeOnly := false }).book := freezes_moves regular rfl fun _ => rfl
    have moved := persist_moves thawed regular settled.same pub
    split <;> rename_i result <;> rw [result] at moved <;> exact moved

end MakerStateStore

/-- How a valid shared book ties its intents to its allocations. -/
structure Book.Indexed (b : Book) : Prop where
  keyed : ∀ v k intent, b.Holds v k intent → intent.intentId = k
  distinct : b.fillKeys.Nodup
  opened : ∀ v k intent, b.Holds v k intent →
    ∃ item ∈ b.allocations, item.fillKey = intent.fillKey ∧ item.allocatedOunces ≠ 0
  unique : ∀ v k intent v' k' other, b.Holds v k intent → b.Holds v' k' other →
    intent.fillKey = other.fillKey → v = v' ∧ k = k'
  owned : ∀ item ∈ b.allocations, item.allocatedOunces ≠ 0 →
    ∃ v k intent, b.Holds v k intent ∧ intent.fillKey = item.fillKey

theorem Book.Indexed.allocated {b : Book} (h : b.Indexed) {v : ViewKey} {k : String}
    {intent : HedgeIntent} (held : b.Holds v k intent) : intent.fillKey ∈ b.fillKeys := by
  obtain ⟨item, member, same, -⟩ := h.opened v k intent held
  exact List.mem_map.2 ⟨item, member, same⟩

namespace OwnerConfig

variable {cfg : OwnerConfig} {b : Book} (shared : cfg.sharedStrategyIds.isSome)

include shared

theorem shared_views (v : ViewKey) : v ∈ cfg.viewKeys := by
  unfold viewKeys
  rw [if_pos shared]
  cases v <;> simp

theorem shared_legacy (valid : cfg.validate b = .ok ()) : cfg.legacyOrders = [] := by
  unfold validate at valid
  rw [bind_unit_eq_ok, raiseIf_eq_ok] at valid
  by_contra legacy
  exact valid.1 ⟨shared, .inr legacy⟩

/-- The joint index of the intents, entry by entry. -/
theorem holds_iff {t : Tally} (audited : Audited cfg b t) (fillKey : String)
    (intent : HedgeIntent) : (cfg.intentsByFill b).get? fillKey = some intent ↔
      intent.fillKey = fillKey ∧ ∃ v, b.Holds v intent.intentId intent := by
  rw [← Dict.mem_entries_iff, audited.entries]
  simp only [List.mem_flatMap, List.mem_map, Prod.mk.injEq]
  constructor
  · rintro ⟨v, known, other, member, key, rfl⟩
    obtain ⟨k, found⟩ := (Dict.mem_values_iff _ _).1 member
    refine ⟨key, v, ?_⟩
    rw [audited.recorded.keyed v known k other found]
    exact found
  · rintro ⟨key, v, held⟩
    exact ⟨v, shared_views shared v, intent, (Dict.mem_values_iff _ _).2 ⟨_, held⟩, key, rfl⟩

theorem indexed_of_valid (valid : cfg.validate b = .ok ()) : b.Indexed := by
  obtain ⟨t, audited⟩ := audited_of_validate valid
  have keyed : ∀ v k intent, b.Holds v k intent → intent.intentId = k :=
    fun v => audited.recorded.keyed v (shared_views shared v)
  have indexed : ∀ v k intent, b.Holds v k intent →
      (cfg.intentsByFill b).get? intent.fillKey = some intent := by
    intro v k intent held
    refine (holds_iff shared audited _ _).2 ⟨rfl, v, ?_⟩
    rw [keyed v k intent held]
    exact held
  have distinct := audited.walked.distinct
  refine ⟨keyed, distinct, ?_, ?_, ?_⟩
  · intro v k intent held
    have found := indexed v k intent held
    have walked : intent.fillKey ∈ t.allocated := by
      by_contra outside
      have waiting := audited.walked.waiting _ outside
      rw [found, Dict.get?, audited.spent] at waiting
      cases waiting
    rw [audited.walked.allocated, shared_legacy shared valid] at walked
    obtain ⟨item, member, same⟩ := List.mem_map.1 (walked.resolve_left (by simp))
    have owns := audited.walked.owned item member
    rw [same, found] at owns
    exact ⟨item, member, same, owns.1⟩
  · intro v k intent v' k' other held held' same
    let keys := fun v => (b.views v).hedgeIntents.values.map (·.fillKey)
    have nodup : (cfg.viewKeys.flatMap keys).Nodup := by
      have nodup := (cfg.intentsByFill b).nodup
      rw [audited.entries] at nodup
      simpa [List.map_flatMap, List.map_map, Function.comp_def] using nodup
    rw [List.nodup_flatMap] at nodup
    have key_mem : ∀ v k intent, b.Holds v k intent → intent.fillKey ∈ keys v := by
      intro v k intent held
      exact List.mem_map.2 ⟨intent, (Dict.mem_values_iff _ _).2 ⟨k, held⟩, rfl⟩
    have one : v = v' := by
      by_contra apart
      have symmetric : Std.Symm (Function.onFun List.Disjoint keys) :=
        ⟨fun _ _ disjoint => List.Disjoint.symm disjoint⟩
      have disjoint : List.Disjoint (keys v) (keys v') :=
        nodup.2.forall (shared_views shared v) (shared_views shared v') apart
      exact disjoint (key_mem v k intent held) (same ▸ key_mem v' k' other held')
    have equal : intent = other := by
      have found := indexed v k intent held
      rw [same, indexed v' k' other held'] at found
      exact (Option.some.inj found).symm
    exact ⟨one, (keyed v k intent held).symm.trans (equal ▸ keyed v' k' other held')⟩
  · intro item member nonzero
    have owns := audited.walked.owned item member
    cases found : (cfg.intentsByFill b).get? item.fillKey with
    | none => rw [found] at owns; exact absurd owns nonzero
    | some intent =>
      obtain ⟨key, v, held⟩ := (holds_iff shared audited _ _).1 found
      exact ⟨v, _, intent, held, key⟩

/-- The gate opens for the earliest unfinished allocation alone. -/
theorem ready_cleared (valid : cfg.validate b = .ok ()) {v : ViewKey} {intentId : String}
    (ready : cfg.hedgeDispatchReady b v intentId = true) :
    ∃ intent, b.Holds v intentId intent ∧ b.Cleared intent.fillKey := by
  have indexed := indexed_of_valid shared valid
  have entries : (Dict.ofList (cfg.intentEntries b)).entries = cfg.intentEntries b := by
    apply Dict.entries_ofList_of_nodup
    obtain ⟨t, audited⟩ := audited_of_validate valid
    have nodup := (cfg.intentsByFill b).nodup
    rw [audited.entries] at nodup
    simpa [intentEntries, List.map_flatMap, List.map_map, Function.comp_def] using nodup
  have look : ∀ fillKey v intent, (Dict.ofList (cfg.intentEntries b)).get? fillKey =
      some (v, intent) ↔ intent.fillKey = fillKey ∧ b.Holds v intent.intentId intent := by
    intro fillKey v intent
    rw [← Dict.mem_entries_iff, entries]
    simp only [intentEntries, List.mem_flatMap, List.mem_map, Prod.mk.injEq]
    constructor
    · rintro ⟨v', -, other, member, key, rfl, rfl⟩
      obtain ⟨k, found⟩ := (Dict.mem_values_iff _ _).1 member
      refine ⟨key, ?_⟩
      rw [indexed.keyed v' k other found]
      exact found
    · rintro ⟨key, held⟩
      exact ⟨v, shared_views shared v, intent, (Dict.mem_values_iff _ _).2 ⟨_, held⟩, key, rfl, rfl⟩
  have some' : cfg.sharedStrategyIds ≠ none := Option.isSome_iff_ne_none.1 shared
  simp only [hedgeDispatchReady, some', false_or, decide_eq_true_eq] at ready
  obtain ⟨⟨v', intent⟩, first, chosen⟩ := (Option.any_eq_true _ _).1 ready
  obtain ⟨rfl, rfl⟩ := of_decide_eq_true chosen
  unfold firstUnfinishedHedge at first
  dsimp only at first
  split at first
  · cases first
  · obtain ⟨before, item, after, split, hit, earlier⟩ := List.findSome?_eq_some_iff.1 first
    rw [Option.filter_eq_some_iff] at hit
    obtain ⟨key, held⟩ := (look _ _ _).1 hit.1
    refine ⟨intent, held, ?_⟩
    intro v'' k other held' precedes
    have keys : b.fillKeys = before.map (·.fillKey) ++ intent.fillKey :: after.map (·.fillKey) := by
      rw [Book.fillKeys, split, List.map_append, List.map_cons, key]
    have distinct := indexed.distinct
    rw [keys] at precedes distinct
    obtain ⟨passed, member, same⟩ := List.mem_map.1 (precedes.mem_of_split distinct)
    have skipped := earlier passed member
    have found : (Dict.ofList (cfg.intentEntries b)).get? passed.fillKey = some (v'', other) := by
      refine (look _ _ _).2 ⟨same.symm, ?_⟩
      rw [indexed.keyed v'' k other held']
      exact held'
    rw [found, Option.filter_eq_none_iff] at skipped
    simpa using skipped

end OwnerConfig

/-- A source fill takes the next allocation and opens at most one unplanned intent. -/
structure Book.Opens (b b' : Book) (v : ViewKey) (item : Allocation) : Prop where
  allocations : b'.allocations = b.allocations ++ [item]
  others : ∀ v', v' ≠ v → (b'.views v').hedgeIntents = (b.views v').hedgeIntents
  here : (b'.views v).hedgeIntents = (b.views v).hedgeIntents ∨ ∃ fresh : HedgeIntent,
    (b'.views v).hedgeIntents = (b.views v).hedgeIntents.set fresh.intentId fresh ∧
      fresh.fillKey = item.fillKey ∧ fresh.hedgeOrderIds = [] ∧ Store.Regular fresh

namespace MakerStateStore

theorem applySourceFill_opens {digest : String → String} {o filled : MakerStateStore} {v : ViewKey}
    {fill : SourceFill} {intent : Option HedgeIntent}
    (h : o.applySourceFill digest v fill none = .ok (filled, intent)) :
    filled.book = o.book ∨ ∃ item, o.book.Opens filled.book v item := by
  unfold applySourceFill at h
  split at h
  · cases h; exact .inl rfl
  · split at h
    · cases h; exact .inl rfl
    · rename_i record known
      simp only [bind_eq_ok, Prod.exists, pure_eq_ok, Prod.mk.injEq] at h
      obtain ⟨recorded, booked, opened, result, made, rfl, -⟩ := h
      obtain ⟨-, -, -, -, -, same, -⟩ := StoreState.recordSourceFill_eq_ok booked
      refine .inr ⟨_, rfl, fun v' apart => ?_, ?_⟩
      · simp [setBook, Book.setView, OwnerConfig.allocate, apart]
      · have view : (((o.cfg.allocate (o.book.setView v recorded) record fill.fillKey
            fill.signedFill).1).views v).hedgeIntents = (o.book.views v).hedgeIntents := by
          simpa [OwnerConfig.allocate, Book.setView, view] using same
        rcases StoreState.openHedgeIntent_eq_ok made with ⟨-, rfl, -⟩ | ⟨-, fresh, fields, -, rfl⟩
        · left
          simpa [setBook, Book.setView] using view
        · right
          refine ⟨fresh, ?_, by rw [fields]; rfl, by rw [fields]; rfl, ?_, ?_, ?_, ?_, ?_⟩
          · rw [← view]
            simp [setBook, Book.setView, StoreState.setIntent]
          · rw [fields]; rfl
          · intro bound
            rw [fields] at bound
            exact absurd rfl bound
          · intro order current
            rw [fields] at current
            cases current
          · intro planned
            rw [fields] at planned
            exact absurd rfl planned
          · intro _
            rw [fields]; rfl

theorem freezeForFill_book (o : MakerStateStore) (fill : SourceFill) :
    (o.freezeForFill fill).book.allocations = o.book.allocations ∧
      ∀ v, ((o.freezeForFill fill).book.views v).hedgeIntents = (o.book.views v).hedgeIntents :=
  ⟨rfl, fun v => setFreezes_intents _ _ _ v⟩

theorem reserveSourceFill_opens {digest : String → String} {o : MakerStateStore}
    (settled : Settled o) (regular : o.book.Regular) (v : ViewKey) (pub : Publication)
    (fill : SourceFill) : o.book.Moves (o.reserveSourceFill digest v pub fill).2.book ∨
      ∃ item, o.book.Opens (o.reserveSourceFill digest v pub fill).2.book v item := by
  unfold reserveSourceFill
  split
  · exact .inl (.refl regular)
  · split
    · exact .inl (.refl regular)
    · rename_i filled intent applied
      obtain ⟨committed, -⟩ := applySourceFill_committed applied
      obtain ⟨allocations, intents⟩ := o.freezeForFill_book fill
      have back : o.book = filled.committed := settled.same.trans committed.symm
      have kept : ∀ book, book = filled.committed ∨ book = filled.candidate.book →
          o.book.Moves book ∨ ∃ item, o.book.Opens book v item := by
        rintro book (rfl | rfl)
        · rw [← back]; exact .inl (.refl regular)
        · rcases applySourceFill_opens applied with same | ⟨item, opens⟩
          · refine .inl (candidate_moves ?_)
            rw [same]
            exact freezes_moves regular allocations intents
          · have carried : o.book.Opens filled.book v item :=
              ⟨opens.allocations, fun v' apart => (opens.others v' apart).trans (intents v'),
                by rw [← intents v]; exact opens.here⟩
            have views : filled.candidate.book.views = filled.book.views ∧
                filled.candidate.book.allocations = filled.book.allocations := by
              unfold candidate
              split <;> exact ⟨rfl, rfl⟩
            refine .inr ⟨item, views.2.trans carried.allocations, ?_, ?_⟩
            · rw [views.1]; exact carried.others
            · rw [views.1]; exact carried.here
      have stored := kept _ (filled.persist_book pub)
      split <;> rename_i result
      · rw [result] at stored; exact stored
      · split
        · rw [result] at stored; exact stored
        · exact .inl (.refl regular)

end MakerStateStore

/-- A leg that was handed out: its intent is planned, and its turn has come. -/
def Book.LegReady (b : Book) (leg : ViewKey × String) : Prop :=
  ∃ intent, b.Holds leg.1 leg.2 intent ∧ intent.hedgePlan ≠ [] ∧ b.Cleared intent.fillKey

/-- Orders were bound in allocation order only. -/
def Book.Ordered (b : Book) : Prop :=
  ∀ v k intent, b.Holds v k intent → intent.hedgeOrderIds ≠ [] → b.Cleared intent.fillKey

structure LaneSound (l : Lane) : Prop where
  settled : Settled l.owner
  shared : l.owner.cfg.sharedStrategyIds.isSome
  regular : l.owner.book.Regular
  ordered : l.owner.book.Ordered
  legs : ∀ leg ∈ l.legs, l.owner.book.LegReady leg

theorem LaneSound.indexed {l : Lane} (h : LaneSound l) : l.owner.book.Indexed := by
  apply OwnerConfig.indexed_of_valid h.shared
  rw [h.settled.same]
  exact h.settled.valid

namespace Book

variable {b b' : Book}

theorem Moves.legReady (h : b.Moves b') {leg : ViewKey × String} (ready : b.LegReady leg) :
    b'.LegReady leg := by
  obtain ⟨intent, held, planned, cleared⟩ := ready
  obtain ⟨moved, after, step⟩ := (h.views leg.1).forth held
  exact ⟨moved, after, step.plan planned, step.key ▸ h.cleared cleared⟩

theorem Moves.ordered (h : b.Moves b') (ordered : b.Ordered) : b'.Ordered := by
  intro v k moved held bound
  obtain ⟨intent, before, step⟩ := (h.views v).back held
  rw [step.orders] at bound
  rw [step.key]
  exact h.cleared (ordered v k intent before bound)

section Opens

variable {v : ViewKey} {item : Allocation} (opens : b.Opens b' v item) (old : b.Indexed)
  (new : b'.Indexed)

include opens

theorem Opens.fillKeys : b'.fillKeys = b.fillKeys ++ [item.fillKey] := by
  rw [Book.fillKeys, opens.allocations, List.map_append, Book.fillKeys]
  rfl

include new in
theorem Opens.fresh_key : item.fillKey ∉ b.fillKeys := by
  have distinct := new.distinct
  rw [opens.fillKeys] at distinct
  intro member
  exact (List.nodup_append.1 distinct).2.2 _ member item.fillKey (by simp) rfl

/-- What the later book holds, it held before, or it is the opened intent. -/
theorem Opens.back {w : ViewKey} {k : String} {intent : HedgeIntent} (held : b'.Holds w k intent) :
    b.Holds w k intent ∨ intent.fillKey = item.fillKey ∧ intent.hedgeOrderIds = [] ∧
      Store.Regular intent := by
  by_cases here : w = v
  · subst here
    rcases opens.here with same | ⟨fresh, same, key, unbound, regular⟩
    · rw [Holds, same] at held
      exact .inl held
    · rw [Holds, same, Dict.get?_set] at held
      split at held
      · obtain rfl := Option.some.inj held
        exact .inr ⟨key, unbound, regular⟩
      · exact .inl held
  · rw [Holds, opens.others w here] at held
    exact .inl held

include old new in
/-- Nothing held before is lost: an overwritten intent would leave its allocation bare. -/
theorem Opens.forth {w : ViewKey} {k : String} {intent : HedgeIntent} (held : b.Holds w k intent) :
    b'.Holds w k intent := by
  by_cases here : w = v
  · subst here
    rcases opens.here with same | ⟨fresh, same, key, -, -⟩
    · rw [Holds, same]
      exact held
    · by_cases replaced : fresh.intentId = k
      · obtain ⟨taken, member, key', nonzero⟩ := old.opened w k intent held
        have later : taken ∈ b'.allocations := by
          rw [opens.allocations]
          exact List.mem_append_left _ member
        obtain ⟨w', k', owner, found, owns⟩ := new.owned taken later nonzero
        rcases opens.back found with before | ⟨apart, -⟩
        · obtain ⟨rfl, rfl⟩ := old.unique w k intent w' k' owner held before
            (key'.symm.trans owns.symm)
          rw [Holds, same, replaced, Dict.get?_set_self] at found
          obtain rfl := Option.some.inj found
          have known : item.fillKey ∈ b.fillKeys := by
            rw [← key]
            exact old.allocated before
          exact absurd known (opens.fresh_key new)
        · have known : item.fillKey ∈ b.fillKeys := by
            rw [← apart, owns]
            exact List.mem_map_of_mem member
          exact absurd known (opens.fresh_key new)
      · rw [Holds, same, Dict.get?_set_of_ne _ replaced]
        exact held
  · rw [Holds, opens.others w here]
    exact held

include new in
theorem Opens.cleared {fillKey : String} (known : fillKey ∈ b.fillKeys)
    (cleared : b.Cleared fillKey) : b'.Cleared fillKey := by
  intro w k intent held earlier
  have apart : fillKey ≠ item.fillKey := by
    rintro rfl
    exact opens.fresh_key new known
  rw [opens.fillKeys] at earlier
  have before := earlier.of_concat apart
  rcases opens.back held with held | ⟨key, -⟩
  · exact cleared w k intent held before
  · rw [key] at before
    exact absurd before.left (opens.fresh_key new)

include old new in
theorem Opens.ordered (ordered : b.Ordered) : b'.Ordered := by
  intro w k intent held bound
  rcases opens.back held with held | ⟨-, unbound, -⟩
  · exact opens.cleared new (old.allocated held) (ordered w k intent held bound)
  · exact absurd unbound bound

include old new in
theorem Opens.legReady {leg : ViewKey × String} (ready : b.LegReady leg) : b'.LegReady leg := by
  obtain ⟨intent, held, planned, cleared⟩ := ready
  exact ⟨intent, opens.forth old new held, planned, opens.cleared new (old.allocated held) cleared⟩

theorem Opens.regular (regular : b.Regular) : b'.Regular := by
  intro w k intent found
  rcases opens.back found with held | ⟨-, -, fresh⟩
  · exact regular w k intent held
  · exact fresh

end Opens

end Book

namespace MakerStateStore

variable {o : MakerStateStore}

theorem callView_lane {digest : String → String} (settled : Settled o) (regular : o.book.Regular)
    (indexed : o.book.Indexed) (v : ViewKey) (pub : Publication) {op : StoreOp}
    (plain : op.Unbinding) : o.book.Moves (o.callView digest v pub op).2.book ∨
      ∃ item, o.book.Opens (o.callView digest v pub op).2.book v item := by
  have keyed := indexed.keyed v
  have here := regular v
  cases op with
  | freezeSourceSubmissions reason =>
    exact .inl (freezeExternal_moves settled regular pub reason [v])
  | clearSourceFreeze =>
    have moved := clearSourceFreezes_moves settled regular pub
    left
    simp only [callView, clearSourceFreeze]
    split <;> rename_i result <;> rw [result] at moved
    · exact moved
    · split <;> exact moved
  | recoverForStart =>
    refine .inl (commitView_moves settled regular pub fun t yields => ?_)
    exact recoverForStart_moves keyed here ((Change.discard_yields _ _).1 yields)
  | beginSource request =>
    exact .inl (commitView_moves settled regular pub fun t => beginSource_moves here)
  | updateSourceStatus order status =>
    exact .inl (commitView_moves settled regular pub fun t => updateSourceStatus_moves here)
  | confirmSourceReconciled order =>
    exact .inl (commitView_moves settled regular pub fun t => confirmSourceReconciled_moves here)
  | markSourceUnknown order reason =>
    exact .inl (commitView_moves settled regular pub fun t => markSourceUnknown_moves here)
  | reserveSourceFill fill =>
    have stored : _ ∨ ∃ item, o.book.Opens (o.reserveSourceFill digest v pub fill).2.book v item :=
      reserveSourceFill_opens settled regular v pub fill
    simp only [callView]
    split <;> rename_i result <;> rw [result] at stored <;> exact stored
  | bindHedgeOrder => exact plain.elim
  | bindHedgePlan => exact plain.elim
  | blockHedgeIntent intentId reason =>
    exact .inl (commitView_moves settled regular pub fun t => blockHedgeIntent_moves here)
  | updateHedgeStatus order status nativeStatus =>
    exact .inl (commitView_moves settled regular pub fun t => updateHedgeStatus_moves keyed here)
  | applyHedgeFill fill =>
    refine .inl (commitView_moves settled regular pub fun t yields => ?_)
    exact applyHedgeFill_moves keyed here ((Change.discard_yields _ _).1 yields)
  | projectSourceFills | projectHedgeFills | settleCompleted => exact .inl (.refl regular)

theorem persist_ok {pub : Publication} {o' : MakerStateStore}
    (h : o.persist pub = (.ok (), o')) : o'.book.views = o.book.views := by
  unfold persist at h
  dsimp only at h
  split at h
  · cases h
  · cases pub
    · simp only [Prod.mk.injEq, true_and] at h
      rw [← h]
      unfold candidate
      split <;> rfl
    · cases h
    · cases h

/-- A change that was carried through is what the view now holds. -/
theorem commitView_ok {α : Type} {v : ViewKey} {pub : Publication} {c : Change StoreState α}
    {a : α} {o' : MakerStateStore} (h : o.commitView v pub c = (.ok a, o')) :
    c = .keeps a ∧ o' = o ∨ ∃ t, (c = .publishes t a ∨ c = .reserves t a) ∧ o'.view v = t := by
  cases c with
  | raises => cases h
  | keeps =>
    simp only [commitView, Prod.mk.injEq, Except.ok.injEq] at h
    obtain ⟨rfl, rfl⟩ := h
    exact .inl ⟨rfl, rfl⟩
  | publishes t b =>
    simp only [commitView] at h
    split at h
    · rename_i stored
      simp only [Prod.mk.injEq, Except.ok.injEq] at h
      obtain ⟨rfl, rfl⟩ := h
      refine .inr ⟨t, .inl rfl, ?_⟩
      rw [view, persist_ok stored]
      simp [setView, Book.setView]
    · cases h
  | reserves t b =>
    simp only [commitView] at h
    split at h
    · rename_i stored
      simp only [Prod.mk.injEq, Except.ok.injEq] at h
      obtain ⟨rfl, rfl⟩ := h
      refine .inr ⟨t, .inr rfl, ?_⟩
      rw [view, persist_ok stored]
      simp [setView, Book.setView]
    · cases h

end MakerStateStore

/-- The intent a plan binding returns is the one it stores. -/
theorem bindHedgePlan_returns {s : StoreState} {intentId : String} {plan : List HedgeLeg}
    {planned : HedgeIntent} :
    (s.bindHedgePlan intentId plan = .keeps planned →
      s.hedgeIntents.get? intentId = some planned) ∧
    ∀ t, s.bindHedgePlan intentId plan = .publishes t planned ∨
        s.bindHedgePlan intentId plan = .reserves t planned →
      t.hedgeIntents.get? intentId = some planned := by
  unfold StoreState.bindHedgePlan
  split
  · simp
  · rename_i intent found
    split
    · split
      · simp
      · simp [found]
    · split
      · simp
      · split
        · simp
        · simp [StoreState.setIntent]

namespace MakerStateStore

variable {o o' : MakerStateStore}

/-- What the owner keeps through the planning half of an attempt. -/
structure Advanced (o o' : MakerStateStore) : Prop where
  moves : o.book.Moves o'.book
  settled : Settled o'
  cfg : o'.cfg = o.cfg

theorem commitView_advanced {α : Type} (settled : Settled o) (regular : o.book.Regular)
    {v : ViewKey} (pub : Publication) {c : Change StoreState α}
    (step : ∀ t, c.Yields t → Moves (o.view v) t) : o.Advanced (o.commitView v pub c).2 :=
  ⟨commitView_moves settled regular pub step, (commitView_settled settled v pub c).1,
    (commitView_settled settled v pub c).2⟩

theorem ensurePlan_advanced (settled : Settled o) (regular : o.book.Regular) {v : ViewKey}
    {intent : HedgeIntent} (held : o.book.Holds v intent.intentId intent)
    (positions : List Position) (pub : Publication) :
    o.Advanced (o.ensurePlan v intent positions pub).2 ∧
      ∀ planned, (o.ensurePlan v intent positions pub).1 = .ok planned →
        (o.ensurePlan v intent positions pub).2.book.Holds v intent.intentId planned := by
  have still : o.Advanced o := ⟨.refl regular, settled, rfl⟩
  unfold ensurePlan
  split
  · refine ⟨still, fun planned same => ?_⟩
    obtain rfl := Except.ok.inj same
    exact held
  · dsimp only
    split
    · exact ⟨still, fun _ same => nomatch same⟩
    · rename_i plan made
      refine ⟨commitView_advanced settled regular pub fun t => bindHedgePlan_moves (regular v),
        fun planned result => ?_⟩
      cases carried : o.commitView v pub ((o.view v).bindHedgePlan intent.intentId plan) with
      | mk returned o' =>
        rw [carried] at result
        obtain rfl : returned = .ok planned := result
        rcases commitView_ok carried with ⟨kept, same⟩ | ⟨t, published, after⟩
        · rw [same]
          exact bindHedgePlan_returns.1 kept
        · have stored := bindHedgePlan_returns.2 t published
          rw [← after] at stored
          exact stored

theorem tryNextLeg_advanced (settled : Settled o) (regular : o.book.Regular) {v : ViewKey}
    {intent : HedgeIntent} (held : o.book.Holds v intent.intentId intent)
    (positions : List Position) (pub : Publication) :
    o.Advanced (o.tryNextLeg v intent positions pub).2 ∧
      ∀ leg, (o.tryNextLeg v intent positions pub).1 = .ok leg →
        ∃ planned, (o.tryNextLeg v intent positions pub).2.book.Holds v intent.intentId planned ∧
          planned.hedgePlan ≠ [] := by
  have ensured := ensurePlan_advanced settled regular held positions pub
  unfold tryNextLeg
  split <;> rename_i result <;> rw [result] at ensured
  · exact ⟨ensured.1, fun _ same => nomatch same⟩
  · rename_i planned o'
    refine ⟨ensured.1, fun leg taken => ⟨planned, ensured.2 planned rfl, ?_⟩⟩
    intro unplanned
    simp [currentLeg, unplanned] at taken

theorem nextHedgeLeg_advanced (settled : Settled o) (regular : o.book.Regular)
    (indexed : o.book.Indexed) (v : ViewKey) (intentId : String) (positions : List Position)
    (planned blocked : Publication) :
    o.Advanced (o.nextHedgeLeg v intentId positions planned blocked).2 ∧
      ∀ leg, (o.nextHedgeLeg v intentId positions planned blocked).1 = .ok leg →
        o.cfg.hedgeDispatchReady o.book v intentId = true ∧
        ∃ intent, (o.nextHedgeLeg v intentId positions planned blocked).2.book.Holds v intentId
          intent ∧ intent.hedgePlan ≠ [] := by
  have still : o.Advanced o := ⟨.refl regular, settled, rfl⟩
  unfold nextHedgeLeg
  split
  · exact ⟨still, fun _ same => nomatch same⟩
  · rename_i intent found
    have key : intent.intentId = intentId := indexed.keyed v intentId intent found
    subst key
    split
    · exact ⟨still, fun _ same => nomatch same⟩
    · rename_i ready
      have tried := tryNextLeg_advanced settled regular found positions planned
      split <;> rename_i result <;> rw [result] at tried
      · rename_i leg o'
        exact ⟨tried.1, fun leg' same => ⟨by simpa using ready, tried.2 leg rfl⟩⟩
      · rename_i e o'
        split
        · split
          · exact ⟨tried.1, fun _ same => nomatch same⟩
          · split
            · exact ⟨tried.1, fun _ same => nomatch same⟩
            · have after := tried.1
              have regular' := after.moves.regular
              have stopped := commitView_advanced after.settled regular' (v := v) blocked
                (c := (o'.view v).blockHedgeIntent intent.intentId e.message)
                fun t => blockHedgeIntent_moves (regular' v)
              have both : ∀ last, last = (o'.commitView v blocked
                  ((o'.view v).blockHedgeIntent intent.intentId e.message)).2 →
                  o.Advanced last := by
                rintro last rfl
                exact ⟨after.moves.trans stopped.moves, stopped.settled,
                  stopped.cfg.trans after.cfg⟩
              split <;> rename_i result <;>
                exact ⟨both _ (congrArg Prod.snd result).symm, fun _ same => nomatch same⟩
        · exact ⟨tried.1, fun _ same => nomatch same⟩

end MakerStateStore

namespace LaneSound

variable {l : Lane}

theorem advanced {o : MakerStateStore} (h : LaneSound l) (step : l.owner.Advanced o) :
    LaneSound ⟨o, l.legs⟩ :=
  ⟨step.settled, by rw [step.cfg]; exact h.shared, step.moves.regular,
    step.moves.ordered h.ordered, fun leg member => step.moves.legReady (h.legs leg member)⟩

theorem opened {o : MakerStateStore} (h : LaneSound l) (settled : Settled o)
    (cfg : o.cfg = l.owner.cfg) {v : ViewKey} {item : Allocation}
    (opens : l.owner.book.Opens o.book v item) : LaneSound ⟨o, l.legs⟩ := by
  have new : o.book.Indexed := by
    apply OwnerConfig.indexed_of_valid (cfg ▸ h.shared)
    rw [settled.same]
    exact settled.valid
  exact ⟨settled, by rw [cfg]; exact h.shared, opens.regular h.regular,
    opens.ordered h.indexed new h.ordered,
    fun leg member => opens.legReady h.indexed new (h.legs leg member)⟩

/-- Binding a leg that is ready keeps the order: its own turn had come. -/
theorem bound {o : MakerStateStore} (h : LaneSound l) (settled : Settled o)
    (cfg : o.cfg = l.owner.cfg) {v : ViewKey} {intentId order : String}
    (ready : l.owner.book.LegReady (v, intentId)) {t : StoreState}
    (yields : ((l.owner.view v).bindHedgeOrder intentId order).Yields t)
    (views : o.book.views = (l.owner.setView v t).book.views)
    (allocations : o.book.allocations = l.owner.book.allocations)
    {legs : List (ViewKey × String)} (known : ∀ leg ∈ legs, leg ∈ l.legs) :
    LaneSound ⟨o, legs⟩ := by
  obtain ⟨intent, bound, found, pending, -, -, -, fields, rfl⟩ :=
    StoreState.bindHedgeOrder_yields yields
  obtain ⟨other, held, planned, cleared⟩ := ready
  obtain rfl : intent = other := Option.some.inj (found.symm.trans held)
  have key : bound.fillKey = intent.fillKey := by rw [fields]
  have plan : bound.hedgePlan = intent.hedgePlan := by rw [fields]
  have here : o.book.Holds v intentId bound := by
    simp [Book.Holds, views, MakerStateStore.setView, Book.setView, StoreState.setIntent]
  have elsewhere : ∀ w k, (w, k) ≠ (v, intentId) → ∀ i,
      o.book.Holds w k i ↔ l.owner.book.Holds w k i := by
    intro w k apart i
    rw [Book.Holds, Book.Holds, views]
    by_cases same : w = v
    · subst same
      have differs : intentId ≠ k := fun equal => apart (by rw [equal])
      simp [MakerStateStore.setView, Book.setView, StoreState.setIntent,
        Dict.get?_set_of_ne _ differs, MakerStateStore.view]
    · simp [MakerStateStore.setView, Book.setView, same]
  have keys : o.book.fillKeys = l.owner.book.fillKeys := by
    rw [Book.fillKeys, allocations, Book.fillKeys]
  have clears : ∀ fillKey, l.owner.book.Cleared fillKey → o.book.Cleared fillKey := by
    intro fillKey cleared w k i holds earlier
    rw [keys] at earlier
    by_cases same : (w, k) = (v, intentId)
    · obtain ⟨rfl, rfl⟩ := Prod.mk.injEq .. ▸ same
      obtain rfl := Option.some.inj (here.symm.trans holds)
      rw [key] at earlier
      have done := cleared w k intent held earlier
      rw [pending] at done
      cases done
    · exact cleared w k i ((elsewhere w k same i).1 holds) earlier
  refine ⟨settled, by rw [cfg]; exact h.shared, ?_, ?_, ?_⟩
  · intro w k i holds
    by_cases same : (w, k) = (v, intentId)
    · obtain ⟨rfl, rfl⟩ := Prod.mk.injEq .. ▸ same
      obtain rfl := Option.some.inj (here.symm.trans holds)
      exact (h.regular w k intent held).bind planned pending fields
    · exact h.regular w k i ((elsewhere w k same i).1 holds)
  · intro w k i holds ordered
    by_cases same : (w, k) = (v, intentId)
    · obtain ⟨rfl, rfl⟩ := Prod.mk.injEq .. ▸ same
      obtain rfl := Option.some.inj (here.symm.trans holds)
      rw [key]
      exact clears _ cleared
    · exact clears _ (h.ordered w k i ((elsewhere w k same i).1 holds) ordered)
  · rintro ⟨w, k⟩ member
    by_cases same : (w, k) = (v, intentId)
    · obtain ⟨rfl, rfl⟩ := Prod.mk.injEq .. ▸ same
      exact ⟨bound, here, plan ▸ planned, key ▸ clears _ cleared⟩
    · obtain ⟨i, holds, planned, cleared⟩ := h.legs _ (known _ member)
      exact ⟨i, (elsewhere w k same i).2 holds, planned, clears _ cleared⟩

end LaneSound

theorem lane_step {digest : String → String} {l l' : Lane} (h : LaneSound l)
    (step : LaneStep digest l l') : LaneSound l' := by
  have indexed := h.indexed
  cases step with
  | call v pub plain =>
    obtain ⟨settled, cfg⟩ := MakerStateStore.callView_settled h.settled v pub _
    rcases MakerStateStore.callView_lane h.settled h.regular indexed v pub plain with
      moves | ⟨item, opens⟩
    · exact h.advanced ⟨moves, settled, cfg⟩
    · exact h.opened settled cfg opens
  | freeze reason pub =>
    obtain ⟨settled, cfg⟩ := MakerStateStore.freezeExternal_settled h.settled pub reason
      l.owner.cfg.viewKeys
    exact h.advanced
      ⟨MakerStateStore.freezeExternal_moves h.settled h.regular pub reason _, settled, cfg⟩
  | next v intentId positions planning blocked given =>
    have attempt := MakerStateStore.nextHedgeLeg_advanced h.settled h.regular indexed v intentId
      positions planning blocked
    rw [given] at attempt
    obtain ⟨step, handed⟩ := attempt
    obtain ⟨ready, intent, held, planned⟩ := handed _ rfl
    have sound := h.advanced step
    have valid : l.owner.cfg.validate l.owner.book = .ok () := by
      rw [h.settled.same]
      exact h.settled.valid
    obtain ⟨before, found, cleared⟩ := OwnerConfig.ready_cleared h.shared valid ready
    obtain ⟨moved, after, moves⟩ := (step.moves.views v).forth found
    obtain rfl : intent = moved := Option.some.inj (held.symm.trans after)
    have turn := step.moves.cleared cleared
    refine ⟨sound.settled, sound.shared, sound.regular, sound.ordered, fun leg member => ?_⟩
    rcases List.mem_append.1 member with old | new
    · exact sound.legs leg old
    · obtain rfl := List.mem_singleton.1 new
      exact ⟨intent, held, planned, moves.key ▸ turn⟩
  | refused v intentId positions planning blocked failed =>
    have attempt := MakerStateStore.nextHedgeLeg_advanced h.settled h.regular indexed v intentId
      positions planning blocked
    rw [failed] at attempt
    exact h.advanced attempt.1
  | @bind v intentId order pub given =>
    obtain ⟨settled, cfg⟩ := MakerStateStore.commitView_settled h.settled v pub
      ((l.owner.view v).bindHedgeOrder intentId order)
    have known : ∀ leg ∈ l.legs.erase (v, intentId), leg ∈ l.legs :=
      fun leg member => List.mem_of_mem_erase member
    rcases MakerStateStore.commitView_book h.settled v pub
      ((l.owner.view v).bindHedgeOrder intentId order) with same | ⟨t, yields, views, allocations⟩
    · have still : l.owner.book.Moves (l.owner.bindHedgeLeg v intentId order pub).2.book := by
        rw [MakerStateStore.bindHedgeLeg, same]
        exact .refl h.regular
      have sound := h.advanced ⟨still, settled, cfg⟩
      exact ⟨sound.settled, sound.shared, sound.regular, sound.ordered,
        fun leg member => sound.legs leg (known leg member)⟩
    · exact h.bound settled cfg (h.legs _ given) yields views allocations known
  | restart =>
    have same := h.settled.same
    exact ⟨⟨rfl, h.settled.valid⟩, h.shared, same ▸ h.regular, same ▸ h.ordered, nofun⟩

theorem lane_reachable {digest : String → String} {l : Lane} (h : LaneReachable digest l) :
    LaneSound l := by
  induction h with
  | start shared valid =>
    exact ⟨⟨rfl, valid⟩, shared, fun v k i found => (nomatch found),
      fun v k i found => (nomatch found), nofun⟩
  | next _ step ih => exact lane_step ih step

theorem LaneSound.exclusive {l : Lane} (h : LaneSound l) : l.owner.book.Exclusive := by
  have indexed := h.indexed
  have ordered : ∀ v k intent v' k' other, l.owner.book.Holds v k intent →
      l.owner.book.Holds v' k' other → intent.status ≠ .completed →
      other.hedgeClientOrderId ≠ none →
      ¬Precedes l.owner.book.fillKeys intent.fillKey other.fillKey := by
    intro v k intent v' k' other held held' unfinished bound earlier
    obtain ⟨order, current⟩ := Option.ne_none_iff_exists'.1 bound
    have occurs := (h.regular v' k' other held').recorded order current
    exact unfinished
      (h.ordered v' k' other held' (List.ne_nil_of_mem occurs) v k intent held earlier)
  refine ⟨?_, fun v k intent order held => (h.regular v k intent held).recorded order, h.ordered⟩
  intro v k intent v' k' other held held' bound unfinished bound' unfinished'
  by_cases same : intent.fillKey = other.fillKey
  · exact indexed.unique v k intent v' k' other held held' same
  · rcases precedes_or same (indexed.allocated held) (indexed.allocated held') with earlier | later
    · exact absurd earlier (ordered v k intent v' k' other held held' unfinished bound')
    · exact absurd later (ordered v' k' other v k intent held' held unfinished' bound)

/-- At every moment of every interleaving, one order at most is unresolved over all views, and
an order was bound only once every earlier allocation's intent had completed. -/
theorem shared_lane_exclusive {digest : String → String} {l : Lane} (h : LaneReachable digest l) :
    l.owner.book.Exclusive :=
  (lane_reachable h).exclusive

theorem LaneReachable.calls {digest : String → String} {o : MakerStateStore}
    {legs : List (ViewKey × String)} (h : LaneReachable digest ⟨o, legs⟩)
    {calls : List (ViewKey × StoreOp)} (plain : ∀ call ∈ calls, call.2.Unbinding) :
    LaneReachable digest ⟨o.run digest calls, legs⟩ := by
  induction calls generalizing o with
  | nil => exact h
  | cons call calls ih =>
    exact ih (h.next (.call ⟨o, legs⟩ call.1 .published (plain call (by simp))))
      fun other later => plain other (by simp [later])

/-- Each strategy owes a hedge: the Maker's fill rounds to two ounces, the Taker's then to one. -/
def waitingFills : List (ViewKey × StoreOp) := [
  (.bid, .beginSource (sharedRequest "O-1")),
  (.taker, .beginSource (sharedRequest "O-2")),
  (.bid, .reserveSourceFill ⟨"O-1|V-1|T-1", "O-1", "T-1", .buy, 3 / 2⟩),
  (.taker, .reserveSourceFill ⟨"O-2|V-2|T-2", "O-2", "T-2", .buy, 3 / 2⟩)]

/-- The Maker's leg is handed out and bound while the Taker's intent waits unresolved. -/
theorem shared_lane_exclusive_bound :
    let o := MakerStateStore.run id ⟨sharedConfig, .empty, .empty, false⟩ waitingFills
    let handed := (o.nextHedgeLeg .bid "hedge-O-1|V-1|T-1" [] .published .published).2
    let bound := (handed.bindHedgeLeg .bid "hedge-O-1|V-1|T-1" "H-1" .published).2
    ((bound.view .bid).hedgeIntents.values.map fun intent => (intent.hedgeClientOrderId,
      intent.hedgeQuantityOunces, intent.hedgeFilledOunces)) = [(some "H-1", 2, 0)] ∧
    ((bound.view .taker).hedgeIntents.values.map fun intent => (intent.hedgeClientOrderId,
      intent.hedgeQuantityOunces, intent.hedgeFilledOunces)) = [(none, 1, 0)] ∧
    bound.book.Exclusive := by
  intro o handed bound
  refine ⟨by decide +kernel, by decide +kernel, ?_⟩
  have filled : LaneReachable id ⟨o, []⟩ :=
    (LaneReachable.start (by decide) (by decide +kernel)).calls
      (by simp [waitingFills, StoreOp.Unbinding])
  have ready : (o.nextHedgeLeg .bid "hedge-O-1|V-1|T-1" [] .published .published).1.isOk := by
    decide +kernel
  cases given : o.nextHedgeLeg .bid "hedge-O-1|V-1|T-1" [] .published .published with
  | mk returned o' =>
    rw [given] at ready
    cases returned with
    | error e => cases ready
    | ok leg =>
      have next := filled.next (.next _ .bid _ [] .published .published given)
      have last := next.next (.bind _ "H-1" .published (List.mem_singleton_self _))
      have same : handed = o' := congrArg Prod.snd given
      change (handed.bindHedgeLeg .bid "hedge-O-1|V-1|T-1" "H-1" .published).2.book.Exclusive
      rw [same]
      exact shared_lane_exclusive last

end ArbNautilus.Store
