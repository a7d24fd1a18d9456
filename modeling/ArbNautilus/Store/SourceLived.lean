import ArbNautilus.Store.Earlier
import ArbNautilus.Store.SourceLive

/-! A suffix that an owner projects comes in live, too: each book between is published. -/

namespace ArbNautilus.Store

open Base

namespace OwnerConfig

section Apart

variable {b : Book} {v : ViewKey} {ids ids' : Identities}

variable {cfg : OwnerConfig} (valid : cfg.validate b = .ok ())

include valid

/-- What a view's own checks say of its active order and its residual. -/
theorem view_sound (known : v ∈ cfg.viewKeys) :
    (∀ active ∈ (b.views v).activeSourceOrderId, (b.views v).sourceOrders.get? active ≠ none) ∧
      (b.views v).netUnhedgedOunces = 0 := by
  unfold validate at valid
  rw [bind_unit_eq_ok, bind_unit_eq_ok, bind_eq_ok] at valid
  obtain ⟨-, -, ids, viewed, -⟩ := valid
  obtain ⟨_, _, turn⟩ := foldlM_turns viewed v known
  unfold checkView at turn
  simp only [bind_eq_ok, raiseIf_eq_ok, exists_const, not_not, not_exists, not_and] at turn
  exact ⟨turn.1, turn.2.1⟩

/-- The freezes that a completed cycle may lift are all the same. -/
theorem freezes_together (only : b.cycleFreezeOnly = true) (known : v ∈ cfg.viewKeys) :
    ¬missing (b.views v).sourceFreezeReason ∧
      (b.views v).sourceFreezeReason = (b.views .bid).sourceFreezeReason := by
  unfold validate at valid
  rw [bind_unit_eq_ok, bind_unit_eq_ok] at valid
  obtain ⟨-, together, -⟩ := valid
  have held : ¬(missing (b.views v).sourceFreezeReason ∨
      (b.views v).sourceFreezeReason ≠ (b.views .bid).sourceFreezeReason) := fun bad =>
    raiseIf_eq_ok.1 together ⟨only, v, known, bad⟩
  rw [not_or, not_not] at held
  exact held

end Apart

end OwnerConfig

namespace SourceProjection

/-- A state that took a live fill keeps its freeze and its residual, and at most lets its active
order go. -/
structure Calm (s t : StoreState) : Prop where
  active : ∀ active ∈ t.activeSourceOrderId, active ∈ s.activeSourceOrderId
  net : t.netUnhedgedOunces = s.netUnhedgedOunces
  freeze : t.sourceFreezeReason = s.sourceFreezeReason

theorem Calm.refl (s : StoreState) : Calm s s := ⟨fun _ held => held, rfl, rfl⟩

theorem recordSourceFill_calm {s t : StoreState} {record : SourceOrderRecord} {fill : SourceFill}
    {blockedReason : Option String} (h : s.recordSourceFill record fill blockedReason = .ok t) :
    Calm s t := by
  simp only [StoreState.recordSourceFill, bind_unit_eq_ok] at h
  obtain ⟨-, -, h⟩ := h
  split at h <;> simp only [pure_eq_ok] at h <;> subst h
  · refine ⟨?_, rfl, rfl⟩
    intro active held
    simp only [StoreState.releaseSource] at held
    split at held
    · cases held
    · exact held
  · exact ⟨fun _ held => held, rfl, rfl⟩

theorem ownerFill_calm {digest : String → String} {o filled : MakerStateStore} {v : ViewKey}
    {fill : SourceFill} {blockedReason : Option String} {opened : Option HedgeIntent}
    (h : o.applySourceFill digest v fill blockedReason = .ok (filled, opened)) :
    filled.book.cycleFreezeOnly = o.book.cycleFreezeOnly ∧
      ∀ w, Calm (o.view w) (filled.view w) := by
  unfold MakerStateStore.applySourceFill at h
  split at h
  · cases h
    exact ⟨rfl, fun _ => .refl _⟩
  · split at h
    · cases h
      exact ⟨rfl, fun _ => .refl _⟩
    · simp only [bind_eq_ok, Prod.exists, pure_eq_ok, Prod.mk.injEq] at h
      obtain ⟨recorded, booked, result, intent, made, rfl, -⟩ := h
      refine ⟨rfl, ?_⟩
      intro w
      by_cases here : w = v
      · subst here
        have calm := recordSourceFill_calm booked
        have kept : Calm recorded result := by
          obtain ⟨-, rfl, -⟩ | ⟨-, intent, -, -, rfl⟩ := StoreState.openHedgeIntent_eq_ok made
          · simp only [OwnerConfig.allocate, Book.setView, Function.update_self]
            exact .refl _
          · simp only [OwnerConfig.allocate, Book.setView, Function.update_self]
            exact ⟨fun _ held => held, rfl, rfl⟩
        simp only [MakerStateStore.view, MakerStateStore.setBook, Book.setView,
          Function.update_self]
        exact ⟨fun active held => calm.active active (kept.active active held),
          kept.net.trans calm.net, kept.freeze.trans calm.freeze⟩
      · simp only [MakerStateStore.view, MakerStateStore.setBook, Book.setView,
          OwnerConfig.allocate, Function.update_of_ne here]
        exact .refl _

theorem fillFreezeReason_ne (fill : SourceFill) : MakerStateStore.fillFreezeReason fill ≠ "" := by
  intro same
  have letters := congrArg (fun text => text.toList.length) same
  simp [MakerStateStore.fillFreezeReason] at letters

/-- A fill leaves the freezes together where a completed cycle may lift them. -/
theorem freezeForFill_together {o : MakerStateStore} (valid : o.cfg.validate o.book = .ok ())
    (fill : SourceFill) (only : (o.freezeForFill fill).book.cycleFreezeOnly = true) {v : ViewKey}
    (known : v ∈ o.cfg.viewKeys) :
    ¬missing ((o.freezeForFill fill).view v).sourceFreezeReason ∧
      ((o.freezeForFill fill).view v).sourceFreezeReason =
        ((o.freezeForFill fill).view .bid).sourceFreezeReason := by
  have held {w : ViewKey} (known : w ∈ o.cfg.viewKeys) :
      ((o.freezeForFill fill).view w).sourceFreezeReason = some
        ((o.view w).sourceFreezeReason.getD (MakerStateStore.fillFreezeReason fill)) := by
    simp [MakerStateStore.freezeForFill, MakerStateStore.setFreezes, MakerStateStore.setBook,
      MakerStateStore.view, MakerStateStore.freezeView, known]
  rw [held known, held o.cfg.bid_known]
  have cases' : o.book.cycleFreezeOnly = true ∨ o.unfrozen = true := by
    simp only [MakerStateStore.freezeForFill, MakerStateStore.setFreezes, MakerStateStore.setBook,
      MakerStateStore.releasable, decide_eq_true_eq] at only
    tauto
  obtain before | free := cases'
  · obtain ⟨some', same⟩ := OwnerConfig.freezes_together valid before known
    change ¬missing (o.view v).sourceFreezeReason at some'
    change (o.view v).sourceFreezeReason = (o.view .bid).sourceFreezeReason at same
    rw [← same]
    cases frozen : (o.view v).sourceFreezeReason with
    | none => rw [frozen] at some'; exact absurd (.inl rfl) some'
    | some reason => rw [frozen] at some'; exact ⟨some', rfl⟩
  · have none' {w : ViewKey} (known : w ∈ o.cfg.viewKeys) :
        (o.view w).sourceFreezeReason = none := by
      rw [MakerStateStore.unfrozen, List.all_eq_true] at free
      exact of_decide_eq_true (free w known)
    rw [none' known, none' o.cfg.bid_known, Option.getD_none]
    refine ⟨?_, rfl⟩
    rintro (absent | blank)
    · cases absent
    · exact fillFreezeReason_ne fill (Option.some.inj blank)

theorem Blocks.bare {keys : List String} {taken held : HedgeIntent} (h : Blocks keys taken held) :
    held.bare = taken.bare := by
  unfold Blocks at h
  split at h
  · rw [HedgeIntent.bare, h.2]
    rfl
  · rw [h]

section View

variable {digest : String → String} {reason : String} {keys : List String}
  {live held last : StoreState} {taken : List (SourceFill × ℤ)}

/-- A view between two live fills, beside what the projection makes of it in the end. -/
theorem Mirrors.earlier (mirrors : Mirrors keys live held)
    (appends : Appends digest (some reason) taken held last)
    (counted : OwnerConfig.intentCount last.hedgeIntents =
      OwnerConfig.intentCount held.hedgeIntents + openedCount taken)
    (claimed : ∀ entry ∈ held.hedgeIntents.entries, entry.2.fillKey ∈ held.seenSourceFills)
    (active : ∀ active ∈ live.activeSourceOrderId, live.sourceOrders.get? active ≠ none)
    (net : live.netUnhedgedOunces = 0) :
    ∃ new, live.Earlier last new ∧
      ∀ entry ∈ new, entry.2.fillKey ∈ (fillsOfTaken taken).map (·.fillKey) := by
  obtain ⟨new, entries, opens⟩ := appends.intents counted
  refine ⟨new, ⟨?_, active, net, ?_, ?_, ⟨held.hedgeIntents.entries, entries, ?_⟩, ?_, ?_⟩, ?_⟩
  · rw [appends.orders, mirrors.orders, List.forall₂_map_left_iff, List.forall₂_same]
    intro entry member
    exact ⟨rfl, grown_field (fun _ _ => rfl) _ _ _⟩
  · rw [appends.seen, mirrors.seen]
    exact Finset.subset_union_left
  · rw [appends.same.2.2.2, mirrors.seenHedges]
  · exact (mirrors.intents.imp fun _ _ row => (show Beside HedgeIntent.bare _ _ from
      ⟨row.1, row.2.bare⟩)).flip
  · intro entry member
    obtain ⟨other, there, same, blocks⟩ := forall₂_left mirrors.intents member
    have kept := claimed other there
    rwa [(IntentFields.sameBare blocks.bare).fillKey, mirrors.seen] at kept
  · intro entry member
    obtain ⟨fill, listed, rounded, opened⟩ := opens.each entry member
    exact opened.unbound
  · intro entry member
    exact opens.keys.subset (List.mem_map_of_mem member)

end View

/-- The fills of one order, in turn. -/
structure OneOrder (cid : String) (fills : List SourceFill) : Prop where
  own : ∀ fill ∈ fills, fill.clientOrderId = cid
  head : ∀ fill ∈ fills, (splitText '|' fill.fillKey).head? = some cid
  positive : ∀ fill ∈ fills, 0 < fill.fillOunces
  distinct : (fills.map (·.fillKey)).Nodup

theorem OneOrder.tail {cid : String} {fill : SourceFill} {fills : List SourceFill}
    (h : OneOrder cid (fill :: fills)) : OneOrder cid fills :=
  ⟨(List.forall_mem_cons.1 h.own).2, (List.forall_mem_cons.1 h.head).2,
    (List.forall_mem_cons.1 h.positive).2, (List.nodup_cons.1 h.distinct).2⟩

theorem ouncesOf_allocates {cid other : String} {fills : List SourceFill} {items : List Allocation}
    (one : OneOrder cid fills) (allocates : List.Forall₂ Allocates fills items) :
    OwnerConfig.ouncesOf items other = if other = cid then ounces fills else 0 := by
  induction allocates with
  | nil => simp [OwnerConfig.ouncesOf, ounces]
  | @cons fill item fills items first rest ih =>
    have source : OwnerConfig.sourceOf item = cid := by
      rw [OwnerConfig.sourceOf, first.1, List.headD_eq_head?_getD,
        one.head fill List.mem_cons_self, Option.getD_some]
    have amount : |item.signedFillOunces| = fill.fillOunces := by
      have positive := one.positive fill List.mem_cons_self
      rw [first.2, SourceFill.signedFill]
      cases fill.sourceSide
      · exact abs_of_pos (by simpa using positive)
      · simpa using abs_of_pos positive
    have later := ih one.tail
    unfold OwnerConfig.ouncesOf ounces at *
    by_cases here : other = cid
    · subst here
      rw [if_pos rfl] at later ⊢
      rw [List.filter_cons_of_pos (by simpa using source), List.map_cons, List.sum_cons, later,
        amount, List.map_cons, List.sum_cons]
    · rw [if_neg here] at later ⊢
      rw [List.filter_cons_of_neg (by simpa [source] using Ne.symm here), later]

/-- An owner, live and projected, that fills of one order of one view still come in to, and the
owner that they make of the projected one: each obligation they open is one more. -/
structure Awaits (digest : String → String) (reason : String) (keys : List String) (v : ViewKey)
    (cid : String) (l m : MakerStateStore) (fills : List SourceFill) (changed : MakerStateStore) :
    Prop where
  mirrors : OwnerMirrors keys l m
  view : v ∈ l.cfg.viewKeys
  listed : ∀ fill ∈ fills, fill.fillKey ∈ keys
  claimed : ∀ w ∈ l.cfg.viewKeys, ∀ entry ∈ (m.view w).hedgeIntents.entries,
    entry.2.fillKey ∈ (m.view w).seenSourceFills
  unseen : ∀ fill ∈ fills, ∀ w ∈ l.cfg.viewKeys, fill.fillKey ∉ (m.view w).seenSourceFills
  known : (m.view v).sourceOrders.get? cid ≠ none
  sole : ∀ w ∈ l.cfg.viewKeys, w ≠ v → (m.view w).sourceOrders.get? cid = none
  folded : fills.foldlM
    (fun o fill => Prod.fst <$> o.applySourceFill digest v fill (some reason)) m = .ok changed
  counted : OwnerConfig.intentCount (changed.view v).hedgeIntents +
      OwnerConfig.owningCount m.book.allocations =
    OwnerConfig.intentCount (m.view v).hedgeIntents +
      OwnerConfig.owningCount changed.book.allocations

theorem owningCount_append (items later : List Allocation) :
    OwnerConfig.owningCount (items ++ later) =
      OwnerConfig.owningCount items + OwnerConfig.owningCount later := by
  simp [OwnerConfig.owningCount]

section Awaits

variable {digest : String → String} {reason : String} {keys : List String} {v : ViewKey}
  {cid : String} {l m changed : MakerStateStore} {fill : SourceFill} {fills : List SourceFill}

/-- The owner after the first of the fills. -/
theorem Awaits.next (h : Awaits digest reason keys v cid l m (fill :: fills) changed)
    (one : OneOrder cid (fill :: fills)) {l₁ m₁ : MakerStateStore} {opened : Option HedgeIntent}
    (applied : m.applySourceFill digest v fill (some reason) = .ok (m₁, opened))
    (folded : fills.foldlM
      (fun o fill => Prod.fst <$> o.applySourceFill digest v fill (some reason)) m₁ = .ok changed)
    (mirrors : OwnerMirrors keys l₁ m₁) (cfg : l₁.cfg = l.cfg) :
    Awaits digest reason keys v cid l₁ m₁ fills changed := by
  have own := one.own fill List.mem_cons_self
  obtain ⟨rounded, item, appends, -, amount, allocations, -, others⟩ :=
    ownerFill_takes (h.unseen fill List.mem_cons_self v h.view) (own ▸ h.known) applied
  have takes : Takes digest (some reason) fill rounded (m.view v) (m₁.view v) := by
    cases appends with
    | cons takes _ _ _ rest => cases rest; exact takes
  have unseen : ∀ other ∈ fills, ∀ w ∈ l.cfg.viewKeys,
      other.fillKey ∉ (m₁.view w).seenSourceFills := by
    intro other listed w known
    have before := h.unseen other (List.mem_cons_of_mem _ listed) w known
    by_cases here : w = v
    · subst here
      apply appends.unseen _ before
      intro same
      have distinct := one.distinct
      rw [List.map_cons, List.nodup_cons] at distinct
      exact distinct.1 (same ▸ List.mem_map_of_mem listed)
    · rwa [others w here]
  have ordered := appends.known h.known
  obtain ⟨taken, items, -, later, -, owning, allocations', -, -⟩ :=
    foldOwner_takes (fun other listed => unseen other listed v h.view) one.tail.distinct
      (fun other listed => one.tail.own other listed ▸ ordered) folded
  -- No step adds more than it opens, and all of them together add as much.
  have first := takes.counted
  have second := later.counted
  have whole := h.counted
  have owned : OwnerConfig.owningCount [item] = openedCount [(fill, rounded)] := by
    simp [OwnerConfig.owningCount, openedCount, amount]
  rw [allocations', owningCount_append, allocations, owningCount_append, owning, owned] at whole
  refine ⟨mirrors, cfg ▸ h.view, (List.forall_mem_cons.1 h.listed).2, ?_, cfg ▸ unseen, ordered,
    ?_, folded, ?_⟩
  · intro w known entry member
    rw [cfg] at known
    by_cases here : w = v
    · subst here
      rw [takes.seen, Finset.mem_insert]
      obtain ⟨-, intents⟩ | ⟨intent, made, entries⟩ := takes.appended (by omega)
      · rw [intents] at member
        exact .inr (h.claimed w known entry member)
      · rw [entries, List.mem_append, List.mem_singleton] at member
        obtain old | rfl := member
        · exact .inr (h.claimed w known entry old)
        · exact .inl made.fillKey
    · rw [others w here] at member ⊢
      exact h.claimed w known entry member
  · intro w known other
    rw [others w other]
    exact h.sole w (cfg ▸ known) other
  · rw [allocations', owningCount_append, owning]
    omega

/-- The owner's book before the fills, beside the book after them. -/
theorem Awaits.earlier (h : Awaits digest reason keys v cid l m fills changed)
    (one : OneOrder cid fills)
    (active : ∀ w ∈ l.cfg.viewKeys, ∀ active ∈ (l.view w).activeSourceOrderId,
      (l.view w).sourceOrders.get? active ≠ none)
    (net : ∀ w ∈ l.cfg.viewKeys, (l.view w).netUnhedgedOunces = 0) {b c : Book}
    (before : b.views = l.view) (booked : b.allocations = l.book.allocations)
    (after : c.views = changed.view) (allocated : c.allocations = changed.book.allocations) :
    ∃ items, OwnerConfig.Earlier l.cfg b c items := by
  have unseen : ∀ fill ∈ fills, fill.fillKey ∉ (m.view v).seenSourceFills :=
    fun fill listed => h.unseen fill listed v h.view
  obtain ⟨taken, items, same, appends, allocates, owning, allocations, cfg, others⟩ :=
    foldOwner_takes unseen one.distinct (fun fill listed => one.own fill listed ▸ h.known) h.folded
  have counted : OwnerConfig.intentCount (changed.view v).hedgeIntents =
      OwnerConfig.intentCount (m.view v).hedgeIntents + openedCount taken := by
    have whole := h.counted
    rw [allocations, owningCount_append, owning] at whole
    omega
  have keys' : items.map (·.fillKey) = fills.map (·.fillKey) := keys_allocates allocates
  have fresh : ∀ fill ∈ fills, fill.fillKey ∉ l.cfg.seenFills b := by
    intro fill listed known
    obtain ⟨w, there, known⟩ := Finset.mem_biUnion.1 known
    have there := List.mem_toFinset.1 there
    rw [before, ← (h.mirrors.views w there).seen] at known
    exact h.unseen fill listed w there known
  refine ⟨items, ⟨?_, ?_, ?_, ?_, ?_⟩⟩
  · intro w known
    rw [before, after]
    by_cases here : w = v
    · subst here
      obtain ⟨new, earlier, named⟩ := (h.mirrors.views w known).earlier appends
        counted (h.claimed w known) (active w known) (net w known)
      refine ⟨new, earlier, fun entry member => ?_⟩
      obtain ⟨fill, listed, key⟩ := List.mem_map.1 (named entry member)
      rw [← key]
      exact fresh fill (same ▸ listed)
    · rw [others w here]
      obtain ⟨new, earlier, named⟩ := (h.mirrors.views w known).earlier
        (@Appends.nil digest (some reason) (m.view w)) (by simp [openedCount])
        (h.claimed w known) (active w known) (net w known)
      refine ⟨new, earlier, fun entry member => ?_⟩
      simpa [fillsOfTaken] using named entry member
  · rw [allocated, allocations, h.mirrors.allocations, booked]
  · intro item member
    obtain ⟨fill, listed, made⟩ := forall₂_right allocates member
    rw [made.1]
    exact fresh fill listed
  · ext k
    simp only [OwnerConfig.seenFills, Finset.mem_biUnion, Finset.mem_union, List.mem_toFinset,
      before, after, keys']
    constructor
    · rintro ⟨w, known, seen⟩
      by_cases here : w = v
      · subst here
        rw [appends.seen, Finset.mem_union, (h.mirrors.views w known).seen, same] at seen
        obtain old | new := seen
        · exact .inl ⟨w, known, old⟩
        · exact .inr (List.mem_toFinset.1 new)
      · rw [others w here, (h.mirrors.views w known).seen] at seen
        exact .inl ⟨w, known, seen⟩
    · rintro (⟨w, known, seen⟩ | new)
      · refine ⟨w, known, ?_⟩
        by_cases here : w = v
        · subst here
          rw [appends.seen, Finset.mem_union, (h.mirrors.views w known).seen]
          exact .inl seen
        · rw [others w here, (h.mirrors.views w known).seen]
          exact seen
      · refine ⟨v, h.view, ?_⟩
        rw [appends.seen, Finset.mem_union, same]
        exact .inr (List.mem_toFinset.2 new)
  · intro w known other record later found found'
    rw [before] at found
    rw [after] at found'
    rw [← (h.mirrors.views w known).orders] at found
    rw [ouncesOf_allocates one allocates]
    by_cases here : w = v
    · subst here
      have grew : later = grown fills other record := by
        have listed := (Dict.mem_entries_iff _ _ _).2 found'
        rw [appends.orders, same] at listed
        obtain ⟨⟨cid', record'⟩, member, equal⟩ := List.mem_map.1 listed
        obtain ⟨rfl, rfl⟩ := Prod.mk.inj equal
        have held := (Dict.mem_entries_iff _ _ _).1 member
        rw [held] at found
        obtain rfl := Option.some.inj found
        rfl
      rw [grew]
      split_ifs with own
      · subst own
        exact grown_filled one.own record
      · rw [grown_other, add_zero]
        intro fill listed
        rw [one.own fill listed]
        exact Ne.symm own
    · rw [others w here, found] at found'
      obtain rfl := Option.some.inj found'
      rw [if_neg, add_zero]
      rintro rfl
      rw [h.sole w known here] at found
      cases found

theorem view_freezeForFill (o : MakerStateStore) (fill : SourceFill) (w : ViewKey) :
    ∃ freeze, (o.freezeForFill fill).view w = MakerStateStore.freezeView (o.view w) freeze := by
  simp only [MakerStateStore.freezeForFill, MakerStateStore.setFreezes, MakerStateStore.setBook,
    MakerStateStore.view]
  split
  · exact ⟨_, rfl⟩
  · exact ⟨(o.view w).sourceFreezeReason, rfl⟩

/-- What a live fill leaves of a valid book's active orders and residuals. -/
theorem Awaits.sound (h : Awaits digest reason keys v cid l m (fill :: fills) changed)
    (one : OneOrder cid (fill :: fills)) (valid : l.cfg.validate l.book = .ok ())
    {l₁ m₁ : MakerStateStore} {opened opened' : Option HedgeIntent}
    (applied : m.applySourceFill digest v fill (some reason) = .ok (m₁, opened))
    (accepted : (l.freezeForFill fill).applySourceFill digest v fill none = .ok (l₁, opened'))
    (mirrors : OwnerMirrors keys l₁ m₁) {w : ViewKey} (known : w ∈ l.cfg.viewKeys) :
    (∀ active ∈ (l₁.view w).activeSourceOrderId, (l₁.view w).sourceOrders.get? active ≠ none) ∧
      (l₁.view w).netUnhedgedOunces = 0 := by
  have own := one.own fill List.mem_cons_self
  have unseen := h.unseen fill List.mem_cons_self v h.view
  obtain ⟨rounded, item, appends, -, -, -, -, others⟩ :=
    ownerFill_takes unseen (own ▸ h.known) applied
  have cfg : l₁.cfg = l.cfg := (MakerStateStore.applySourceFill_committed accepted).2
  obtain ⟨active, net⟩ := OwnerConfig.view_sound valid known
  obtain ⟨freeze, frozen⟩ := view_freezeForFill l fill w
  have calm := (ownerFill_calm accepted).2 w
  rw [frozen] at calm
  constructor
  · intro cid' current
    have held := active cid' (calm.active cid' current)
    change (l.view w).sourceOrders.get? cid' ≠ none at held
    rw [← (mirrors.views w (cfg ▸ known)).orders]
    rw [← (h.mirrors.views w known).orders] at held
    by_cases here : w = v
    · subst here
      exact appends.known held
    · rwa [others w here]
  · exact calm.net.trans net

theorem persist_candidate {o : MakerStateStore}
    (valid : o.cfg.validate o.candidate.book = .ok ()) :
    o.persist .published = (.ok (), { o.candidate with committed := o.candidate.book }) := by
  unfold MakerStateStore.persist
  dsimp only
  rw [o.candidate_committed.2, valid]

theorem candidate_book (o : MakerStateStore) : o.candidate.book.views = o.view ∧
    o.candidate.book.allocations = o.book.allocations ∧
    (o.candidate.book.cycleFreezeOnly = true → o.book.cycleFreezeOnly = true) := by
  unfold MakerStateStore.candidate
  split
  · exact ⟨rfl, rfl, fun only => by cases only⟩
  · exact ⟨rfl, rfl, id⟩

theorem Awaits.of_same (h : Awaits digest reason keys v cid l m fills changed)
    {l' : MakerStateStore}
    (cfg : l'.cfg = l.cfg) (views : l'.view = l.view)
    (allocations : l'.book.allocations = l.book.allocations) :
    Awaits digest reason keys v cid l' m fills changed := by
  refine ⟨⟨h.mirrors.cfg.trans cfg.symm, h.mirrors.allocations.trans allocations.symm, ?_⟩,
    cfg ▸ h.view, h.listed, cfg ▸ h.claimed, cfg ▸ h.unseen, h.known, cfg ▸ h.sole,
    h.folded, h.counted⟩
  rw [cfg, views]
  exact h.mirrors.views

/-- Each fill that a projected suffix has still to come is published live. -/
theorem Awaits.lives {c : Book} {instruments : Instruments}
    (h : Awaits digest reason keys v cid l m fills changed) (one : OneOrder cid fills)
    (valid : l.cfg.validate l.book = .ok ())
    (after : c.views = changed.view) (allocated : c.allocations = changed.book.allocations)
    (ends : l.cfg.validate c = .ok ()) :
    ∃ last, live digest (.owner l instruments) v fills = .ok last := by
  induction fills generalizing l m with
  | nil => exact ⟨_, rfl⟩
  | cons fill fills ih =>
    have folded := h.folded
    simp only [List.foldlM_cons, bind_eq_ok, map_eq_ok, Prod.exists] at folded
    obtain ⟨_, ⟨m₁, opened, applied, rfl⟩, folded⟩ := folded
    have own := one.own fill List.mem_cons_self
    have here := h.mirrors.views v h.view
    obtain ⟨l₁, opened', accepted, mirrors⟩ := (h.mirrors.freeze fill).apply h.view
      (h.listed fill List.mem_cons_self) applied
    have cfg : l₁.cfg = l.cfg := (MakerStateStore.applySourceFill_committed accepted).2
    obtain ⟨only, calm⟩ := ownerFill_calm accepted
    obtain ⟨views, booked, less⟩ := candidate_book l₁
    have next := h.next one applied folded mirrors cfg
    have sound := fun {w : ViewKey} (known : w ∈ l₁.cfg.viewKeys) =>
      h.sound one valid applied accepted mirrors (cfg ▸ known)
    obtain ⟨items, earlier⟩ := next.earlier one.tail (fun w known => (sound known).1)
      (fun w known => (sound known).2) views booked after allocated
    have published : l₁.cfg.validate l₁.candidate.book = .ok () := by
      refine OwnerConfig.validate_earlier earlier ?_ (cfg ▸ ends)
      intro lifts w known
      have together := freezeForFill_together valid fill (only ▸ less lifts) (cfg ▸ known)
      rw [views, (calm w).freeze, (calm .bid).freeze]
      exact together
    have taken : reserved digest v (.owner l instruments) fill =
        .ok (.owner { l₁.candidate with committed := l₁.candidate.book } instruments) := by
      have open' : ¬(fill.fillKey ∈ (l.view v).seenSourceFills ∨
          ¬(l.view v).knowsSourceOrder fill.clientOrderId) := by
        have held := h.known
        rw [here.orders, ← own] at held
        rw [not_or, not_not, ← here.seen]
        exact ⟨h.unseen fill List.mem_cons_self v h.view,
          by simpa [StoreState.knowsSourceOrder] using held⟩
      unfold reserved reserveSourceFill MakerStateStore.reserveSourceFill
      dsimp only
      rw [if_neg open', accepted]
      dsimp only
      rw [persist_candidate published]
    obtain ⟨last, rest⟩ := ih (l := { l₁.candidate with committed := l₁.candidate.book })
      (next.of_same l₁.candidate_committed.2 views booked) one.tail
      (l₁.candidate_committed.2 ▸ published) (l₁.candidate_committed.2.trans cfg ▸ ends)
    refine ⟨last, ?_⟩
    unfold live at rest ⊢
    rw [List.foldlM_cons, bind_eq_ok]
    exact ⟨_, taken, rest⟩

end Awaits

section Due

open Native HedgeProjection

variable {digest : String → String} {reason : String} {store store' : BusinessStore}
  {orders : List Order} {route : NativeRoute} {facts : Facts}
  {entry : String × (ViewKey × SourceOrderRecord)}

end Due

end SourceProjection

end ArbNautilus.Store
