import ArbNautilus.Base.Along
import ArbNautilus.Bitfinex.AccountBudget

namespace ArbNautilus.Bitfinex.AccountBudget

open Base MarginPositions

section Steps

variable {cfg : Config} {c : Account} {i : Step}

/-- What a suspended refresh comes to when it goes on. -/
inductive Resumed (cfg : Config) (c : Account) : Turn → Account → Prop
  | waits (turn : Turn) : Resumed cfg c turn c
  | ends (turn : Turn) : Resumed cfg c turn c.endRefresh
  | rejectsWallet (turn : Turn) : Resumed cfg c turn c.rejectWallet.endRefresh
  | rejectsPositions (turn : Turn) : Resumed cfg c turn c.rejectPositions.endRefresh
  | asksWallets {refresh : Refresh} (held : c.accountRefresh = some refresh) :
      Resumed cfg c .start { c with accountRefresh := some { refresh with stage := .wallets } }
  | asksPositions {refresh : Refresh} (held : c.accountRefresh = some refresh)
    (sample : WalletSample)
      (wallet : WalletBalance) (nowNs : ℤ) : Resumed cfg c (.wallets sample nowNs)
        { c with accountRefresh := some { refresh with stage := .positions wallet nowNs } }
  | installs {refresh : Refresh} {wallet : WalletBalance} {walletNs : ℤ} {rows : List PositionState}
      {row : Option PositionState} (held : c.accountRefresh = some refresh)
      (stage : refresh.stage = .positions wallet walletNs)
      (current : c.accountQueryCurrent refresh.revision)
      (valid : c.margin.positionCandidate cfg.rawSymbol ⟨.ps, rows⟩ = (true, row)) (nowNs : ℤ) :
      Resumed cfg c (.positions (some rows) nowNs)
        (c.installBoth cfg refresh wallet walletNs row nowNs).endRefresh

theorem resumeRefresh_resumed (c : Account) (turn : Turn) :
    Resumed cfg c turn (c.resumeRefresh cfg turn) := by
  unfold Account.resumeRefresh
  split
  · exact .waits turn
  · rename_i refresh held
    split
    · split
      · exact .ends _
      · exact .asksWallets held
    · rename_i sample nowNs _
      split
      · exact .ends _
      · split
        · exact .asksPositions held sample _ nowNs
        · exact .rejectsWallet _
    · rename_i wallet walletNs sample nowNs stage
      split
      · exact .ends _
      · rename_i current
        split
        · rename_i row valid
          obtain ⟨rows, rfl, candidate⟩ := Option.map_eq_some_iff.1 valid
          exact .installs held stage (not_not.1 current) candidate nowNs
        · exact .rejectsPositions _
    · exact .waits _

/-- The step at which a refresh installs both components. -/
structure Installs (cfg : Config) (c : Account) (i : Step) (refresh : Refresh) : Prop where
  held : c.accountRefresh = some refresh
  current : c.accountQueryCurrent refresh.revision
  both : ∃ wallet walletNs rows row nowNs, refresh.stage = .positions wallet walletNs ∧
    i = .resume (.positions (some rows) nowNs) ∧
    c.margin.positionCandidate cfg.rawSymbol ⟨.ps, rows⟩ = (true, row)

section Install

variable {refresh : Refresh} {wallet : WalletBalance} {walletNs : ℤ} {row : Option PositionState}
  {nowNs : ℤ}

theorem installBoth_eq : c.installBoth cfg refresh wallet walletNs row nowNs = { c with
    walletRevision := c.walletRevision + 1
    wallet := some wallet
    walletObservedNs := some walletNs
    walletCurrent := true
    margin := Margin.installPosition { c.margin with revision := c.margin.revision + 1 } row nowNs
    accountBudgetRevision :=
      if refresh.eligible ∧ c.BudgetRefreshReady cfg then some refresh.revision.2.2
      else c.accountBudgetRevision } := by
  unfold Account.installBoth
  dsimp only
  split
  · rename_i both
    rw [if_pos (show _ ∧ c.BudgetRefreshReady cfg from both)]
    rfl
  · rename_i both
    rw [if_neg (show ¬(_ ∧ c.BudgetRefreshReady cfg) from both)]
    rfl

end Install

/-- What a step makes of the revision that budget rests on. -/
inductive Rests (cfg : Config) (c : Account) (i : Step) (d : Account) : Prop
  | kept (quiet : ¬c.Disturbs cfg i) (action : d.accountActionRevision = c.accountActionRevision)
      (budget : d.accountBudgetRevision = c.accountBudgetRevision)
  | cleared (disturbs : c.Disturbs cfg i) (budget : d.accountBudgetRevision = none)
  | renewed {refresh : Refresh} (quiet : ¬c.Disturbs cfg i) (installs : Installs cfg c i refresh)
      (eligible : refresh.eligible = true) (ready : d.BudgetRefreshReady cfg)
      (action : d.accountActionRevision = c.accountActionRevision)
      (budget : d.accountBudgetRevision = some d.accountActionRevision)

theorem step_rests (c : Account) (i : Step) : Rests cfg c i (c.step cfg i) := by
  cases i with
  | query accountId clientId =>
    unfold Account.step Account.queryAccount
    dsimp only
    split
    · exact .kept id rfl rfl
    · split
      · exact .kept id rfl rfl
      · split
        · exact .kept id rfl rfl
        · exact .kept id rfl rfl
  | resume turn =>
    have resumed := @resumeRefresh_resumed cfg c turn
    unfold Account.step
    dsimp only
    generalize c.resumeRefresh cfg turn = d at resumed ⊢
    cases resumed with
    | waits | ends | rejectsWallet | rejectsPositions | asksWallets | asksPositions =>
      exact .kept id rfl rfl
    | @installs refresh wallet walletNs rows row held stage current valid nowNs =>
      by_cases renews : refresh.eligible = true ∧ c.BudgetRefreshReady cfg
      · apply Rests.renewed id
          ⟨held, current, wallet, walletNs, rows, row, nowNs, stage, rfl, valid⟩ renews.1
        · rw [installBoth_eq]
          exact renews.2
        · rw [installBoth_eq]
          rfl
        · rw [installBoth_eq, if_pos renews, current.2.2.2]
          rfl
      · rw [installBoth_eq, if_neg renews]
        exact .kept id rfl rfl
  | wallet event nowNs =>
    unfold Account.step Account.handleWallet
    dsimp only
    split
    · exact .kept id rfl rfl
    · split <;> exact .kept id rfl rfl
  | report asOf sample nowNs =>
    unfold Account.step
    dsimp only
    split <;> exact .kept id rfl rfl
  | fill fill =>
    unfold Account.step Account.captureNativeFill
    dsimp only
    split
    · rename_i foreign
      exact .kept (fun own => by obtain ⟨account, instrument, -⟩ := own; tauto) rfl rfl
    · rename_i own
      split
      · rename_i fresh
        exact .cleared ⟨by tauto, by tauto, fresh⟩ rfl
      · rename_i stale
        exact .kept (fun counts => stale counts.2.2) rfl rfl
  | checkStreamGap =>
    unfold Account.step Account.checkStreamGap
    dsimp only
    split <;> exact .kept id rfl rfl
  | action | connect | connectFailed | disconnect => exact .cleared trivial rfl
  | abort | positions | orders | fatal | connected | disconnected | setConnected =>
    exact .kept id rfl rfl

/-- A step that leaves the orders' side alone neither clears nor outdates the revision that budget
rests on. -/
theorem step_current (current : c.accountBudgetRevision = some c.accountActionRevision)
    (quiet : ¬c.Disturbs cfg i) :
    (c.step cfg i).accountBudgetRevision = some (c.step cfg i).accountActionRevision := by
  obtain ⟨-, action, budget⟩ | ⟨disturbs, -⟩ | ⟨-, -, -, -, -, budget⟩ :=
    @step_rests cfg c i
  · rw [budget, action, current]
  · exact absurd disturbs quiet
  · exact budget

/-- The refresh after a step: the one before, further on, or the one that was asked for. -/
theorem step_refresh {next : Refresh} (held : (c.step cfg i).accountRefresh = some next) :
    (∃ refresh, c.accountRefresh = some refresh ∧ next.revision = refresh.revision ∧
      next.eligible = refresh.eligible ∧ (next.stage = refresh.stage ∨ next.stage = .wallets ∨
        ∃ wallet ns, next.stage = .positions wallet ns ∧ i.clock = some ns)) ∨
    c.accountRefresh = none ∧ (∃ accountId clientId, i = .query accountId clientId) ∧
      next = ⟨c.revision, decide (c.BudgetRefreshReady cfg), .created⟩ := by
  have same (still : c.accountRefresh = some next) : ∃ refresh, c.accountRefresh = some refresh ∧
      next.revision = refresh.revision ∧ next.eligible = refresh.eligible ∧
      (next.stage = refresh.stage ∨ next.stage = .wallets ∨
        ∃ wallet ns, next.stage = .positions wallet ns ∧ i.clock = some ns) :=
    ⟨next, still, rfl, rfl, .inl rfl⟩
  cases i with
  | query accountId clientId =>
    unfold Account.step Account.queryAccount at held
    dsimp only at held
    split at held
    · exact .inl (same held)
    · split at held
      · exact .inl (same held)
      · split at held
        · exact .inl (same held)
        · rename_i idle
          exact .inr ⟨by simpa using idle, ⟨accountId, clientId, rfl⟩, (Option.some.inj held).symm⟩
  | resume turn =>
    have resumed := @resumeRefresh_resumed cfg c turn
    unfold Account.step at held
    dsimp only at held
    generalize c.resumeRefresh cfg turn = d at resumed held
    cases resumed with
    | waits => exact .inl (same held)
    | ends | rejectsWallet | rejectsPositions | installs => cases held
    | asksWallets before =>
      cases held
      exact .inl ⟨_, before, rfl, rfl, .inr (.inl rfl)⟩
    | asksPositions before sample wallet nowNs =>
      cases held
      exact .inl ⟨_, before, rfl, rfl, .inr (.inr ⟨wallet, nowNs, rfl, rfl⟩)⟩
  | wallet event nowNs =>
    unfold Account.step Account.handleWallet at held
    dsimp only at held
    split at held
    · exact .inl (same held)
    · split at held <;> exact .inl (same held)
  | report asOf sample nowNs =>
    unfold Account.step at held
    dsimp only at held
    split at held <;> exact .inl (same held)
  | fill fill =>
    unfold Account.step Account.captureNativeFill at held
    dsimp only at held
    split at held
    · exact .inl (same held)
    · split at held <;> exact .inl (same held)
  | checkStreamGap =>
    unfold Account.step Account.checkStreamGap at held
    dsimp only at held
    split at held <;> exact .inl (same held)
  | abort | connect | disconnect => cases held
  | positions | action | orders | fatal | connectFailed | connected | disconnected | setConnected =>
    exact .inl (same held)

/-- The three revisions together. -/
def Account.stamp (c : Account) :
    ℕ := c.margin.revision + c.walletRevision + c.accountActionRevision

theorem handlePositions_revision (m : Margin) (rawSymbol : String) (event : PositionEvent)
    (nowNs : ℤ) :
    m.revision ≤ (m.handlePositions rawSymbol event nowNs).revision := by
  unfold Margin.handlePositions
  dsimp only
  split
  · exact Nat.le_refl _
  · split <;> exact Nat.le_succ _

theorem reportSample_revision (m : Margin) (rawSymbol : String) (asOf : ℕ) (sample : Sample)
    (nowNs : ℤ) :
    m.revision ≤ (m.reportSample rawSymbol asOf sample nowNs).revision := by
  unfold Margin.reportSample
  split
  · exact Nat.le_refl _
  · split
    · exact Nat.le_succ _
    · exact handlePositions_revision _ _ _ _

theorem step_stamp (c : Account) (i : Step) : c.stamp ≤ (c.step cfg i).stamp := by
  cases i with
  | query accountId clientId =>
    unfold Account.step Account.queryAccount
    dsimp only
    split
    · exact Nat.le_refl _
    · split
      · exact Nat.le_refl _
      · split <;> exact Nat.le_refl _
  | resume turn =>
    have resumed := @resumeRefresh_resumed cfg c turn
    unfold Account.step
    dsimp only
    generalize c.resumeRefresh cfg turn = d at resumed ⊢
    cases resumed with
    | waits | ends | asksWallets | asksPositions => exact Nat.le_refl _
    | rejectsWallet =>
      simp only [Account.stamp, Account.endRefresh, Account.rejectWallet]
      omega
    | rejectsPositions =>
      simp only [Account.stamp, Account.endRefresh, Account.rejectPositions, Margin.rejectPositions]
      omega
    | installs =>
      rw [installBoth_eq]
      simp only [Account.stamp, Account.endRefresh, Margin.installPosition]
      omega
  | wallet event nowNs =>
    unfold Account.step Account.handleWallet
    dsimp only
    split
    · exact Nat.le_refl _
    · split
      · simp only [Account.stamp, Account.installMarginWallet]
        omega
      · simp only [Account.stamp, Account.installMarginWallet]
        omega
  | positions event nowNs =>
    have grows := handlePositions_revision c.margin cfg.rawSymbol event nowNs
    simp only [Account.stamp, Account.step]
    omega
  | report asOf sample nowNs =>
    have grows := reportSample_revision c.margin cfg.rawSymbol asOf sample nowNs
    unfold Account.step
    dsimp only
    split
    · simp only [Account.stamp]
      omega
    · exact Nat.le_refl _
  | fill fill =>
    unfold Account.step Account.captureNativeFill
    dsimp only
    split
    · exact Nat.le_refl _
    · split
      · simp only [Account.stamp, Account.invalidateMarginFacts, Account.advanceAccountAction,
          Margin.invalidateMarginFacts]
        omega
      · exact Nat.le_refl _
  | checkStreamGap =>
    unfold Account.step Account.checkStreamGap
    dsimp only
    split <;> exact Nat.le_refl _
  | action orders => exact Nat.le_succ _
  | connect | connectFailed | disconnect =>
    simp only [Account.stamp, Account.step, Account.connect, Account.disconnect, Account.endRefresh,
      Account.invalidateMarginFacts, Margin.invalidateMarginFacts]
    omega
  | abort | orders | fatal | connected | disconnected | setConnected => exact Nat.le_refl _

theorem step_marks (c : Account) (i : Step) (disturbs : c.Disturbs cfg i) :
    c.stamp < (c.step cfg i).stamp := by
  cases i with
  | fill fill =>
    obtain ⟨account, instrument, fresh⟩ := disturbs
    unfold Account.step Account.captureNativeFill
    dsimp only
    rw [if_neg (by simp [account, instrument]), if_pos fresh]
    simp only [Account.stamp, Account.invalidateMarginFacts, Account.advanceAccountAction,
      Margin.invalidateMarginFacts]
    omega
  | action orders => exact Nat.lt_succ_self _
  | connect | connectFailed | disconnect =>
    simp only [Account.stamp, Account.step, Account.connect, Account.disconnect, Account.endRefresh,
      Account.invalidateMarginFacts, Margin.invalidateMarginFacts]
    omega
  | _ => exact disturbs.elim

end Steps

section Clock

variable {cfg : Config} {c : Account} {i : Step} {t : ℤ}

/-- No clock reading that a refresh holds is earlier. -/
def Staged (t : ℤ) (c : Account) : Prop :=
  ∀ refresh wallet ns, c.accountRefresh = some refresh → refresh.stage = .positions wallet ns →
    t ≤ ns

/-- Neither component was observed earlier. -/
def Observed (t : ℤ) (c : Account) : Prop :=
  ∃ walletNs positionsNs, c.walletObservedNs = some walletNs ∧
    c.margin.observedNs = some positionsNs ∧
    t ≤ walletNs ∧ t ≤ positionsNs

theorem step_staged (staged : Staged t c) (clock : ∀ ns ∈ i.clock, t ≤ ns) :
    Staged t (c.step cfg i) := by
  intro next wallet ns held stage
  obtain ⟨refresh, before, -, -, same | asks | ⟨taken, read, positions, reads⟩⟩ | ⟨-, -, rfl⟩ :=
    step_refresh held
  · exact staged refresh wallet ns before (same ▸ stage)
  · rw [asks] at stage
    cases stage
  · rw [positions] at stage
    cases stage
    exact clock ns reads
  · cases stage

theorem handlePositions_observed (m : Margin) (rawSymbol : String) (event : PositionEvent)
    (nowNs : ℤ) :
    (m.handlePositions rawSymbol event nowNs).observedNs = m.observedNs ∨
      (m.handlePositions rawSymbol event nowNs).observedNs = some nowNs := by
  unfold Margin.handlePositions
  dsimp only
  split
  · exact .inl rfl
  · split
    · exact .inr rfl
    · exact .inl rfl

theorem reportSample_observed (m : Margin) (rawSymbol : String) (asOf : ℕ) (sample : Sample)
    (nowNs : ℤ) :
    (m.reportSample rawSymbol asOf sample nowNs).observedNs = m.observedNs ∨
      (m.reportSample rawSymbol asOf sample nowNs).observedNs = some nowNs := by
  unfold Margin.reportSample
  split
  · exact .inl rfl
  · split
    · exact .inl rfl
    · exact handlePositions_observed _ _ _ _

theorem Observed.positions (h : Observed t c) {m : Margin} {nowNs : ℤ} (late : t ≤ nowNs)
    (reads : m.observedNs = c.margin.observedNs ∨ m.observedNs = some nowNs) :
    Observed t { c with margin := m } := by
  obtain ⟨walletNs, positionsNs, wallet, positions, first, second⟩ := h
  obtain same | now := reads
  · exact ⟨walletNs, positionsNs, wallet, same.trans positions, first, second⟩
  · exact ⟨walletNs, nowNs, wallet, now, first, late⟩

theorem step_observed (staged : Staged t c) (clock : ∀ ns ∈ i.clock, t ≤ ns) (h : Observed t c) :
    Observed t (c.step cfg i) := by
  have same {d : Account} (wallet : d.walletObservedNs = c.walletObservedNs)
      (positions : d.margin.observedNs = c.margin.observedNs) : Observed t d := by
    unfold Observed
    rw [wallet, positions]
    exact h
  cases i with
  | query accountId clientId =>
    unfold Account.step Account.queryAccount
    dsimp only
    split
    · exact h
    · split
      · exact h
      · split <;> exact same rfl rfl
  | resume turn =>
    have resumed := @resumeRefresh_resumed cfg c turn
    unfold Account.step
    dsimp only
    generalize c.resumeRefresh cfg turn = d at resumed ⊢
    cases resumed with
    | waits | ends | rejectsWallet | rejectsPositions | asksWallets | asksPositions =>
      exact same rfl rfl
    | @installs refresh wallet walletNs rows row held stage current valid nowNs =>
      rw [installBoth_eq]
      exact ⟨walletNs, nowNs, rfl, rfl, staged refresh wallet walletNs held stage, clock nowNs rfl⟩
  | wallet event nowNs =>
    obtain ⟨walletNs, positionsNs, wallet, positions, first, second⟩ := h
    unfold Account.step Account.handleWallet
    dsimp only
    split
    · exact same rfl rfl
    · split <;> exact ⟨nowNs, positionsNs, rfl, positions, clock nowNs rfl, second⟩
  | positions event nowNs => exact h.positions (clock nowNs rfl) (handlePositions_observed _ _ _ _)
  | report asOf sample nowNs =>
    unfold Account.step
    dsimp only
    split
    · exact h.positions (clock nowNs rfl) (reportSample_observed _ _ _ _ _)
    · exact h
  | fill fill =>
    unfold Account.step Account.captureNativeFill
    dsimp only
    split
    · exact h
    · split <;> exact same rfl rfl
  | checkStreamGap =>
    unfold Account.step Account.checkStreamGap
    dsimp only
    split <;> exact same rfl rfl
  | abort | action | orders | fatal | connect | connectFailed | connected | disconnect |
      disconnected | setConnected => exact same rfl rfl

theorem Installs.step_eq {refresh : Refresh} (h : Installs cfg c i refresh) :
    ∃ wallet walletNs row nowNs,
    refresh.stage = .positions wallet walletNs ∧ i.clock = some nowNs ∧
      c.step cfg i = (c.installBoth cfg refresh wallet walletNs row nowNs).endRefresh := by
  obtain ⟨wallet, walletNs, rows, row, nowNs, stage, rfl, valid⟩ := h.both
  refine ⟨wallet, walletNs, row, nowNs, stage, rfl, ?_⟩
  simp only [Account.step, Account.resumeRefresh, h.held, stage, h.current, valid, Option.map_some,
    not_true, if_false]

theorem Installs.observed {refresh : Refresh} (h : Installs cfg c i refresh) (staged : Staged t c)
    (clock : ∀ ns ∈ i.clock, t ≤ ns) : Observed t (c.step cfg i) := by
  obtain ⟨wallet, walletNs, row, nowNs, stage, reads, turn⟩ := h.step_eq
  rw [turn, installBoth_eq]
  exact ⟨walletNs, nowNs, rfl, rfl, staged refresh wallet walletNs h.held stage, clock nowNs reads⟩

end Clock

section Causality

variable {cfg : Config} {c : Account} {accountId : String} {clientId : Option String}
  {between later : List Step}
  {installed : Step}

/-- A refresh that is asked for at `c` installs both components with no mutation out and nothing new
since, and nothing disturbs them later. -/
structure Refreshed (cfg : Config) (c : Account) (accountId : String) (clientId : Option String)
    (between : List Step) (installed : Step) (later : List Step) : Prop where
  idle : c.accountRefresh = none
  ready : c.BudgetRefreshReady cfg
  alive : Along (Account.step cfg) (fun d _ => d.accountRefresh ≠ none)
    (c.step cfg (.query accountId clientId))
    (between ++ [installed])
  unchanged : ((c.step cfg (.query accountId clientId)).run cfg between).revision = c.revision
  installs : ∃ refresh, Installs cfg ((c.step cfg (.query accountId clientId)).run cfg between)
    installed refresh
  stillReady :
    (((c.step cfg (.query accountId clientId)).run cfg between).step cfg
    installed).BudgetRefreshReady cfg
  quiet : Along (Account.step cfg) (fun d i => ¬d.Disturbs cfg i) c
    (.query accountId clientId :: between ++ installed :: later)

/-- As long as a refresh is under way it is the one that was asked for. -/
theorem refresh_kept {asOf : Revision} {eligible : Bool} (alive : Along (Account.step cfg)
    (fun d _ => d.accountRefresh ≠ none) c between)
    (asked : ∀ refresh, c.accountRefresh = some refresh → refresh.revision = asOf ∧
      refresh.eligible = eligible) :
    ∀ refresh, (c.run cfg between).accountRefresh = some refresh →
      refresh.revision = asOf ∧ refresh.eligible = eligible := by
  refine alive.keeps (P := fun d : Account => ∀ refresh, d.accountRefresh = some refresh →
    refresh.revision = asOf ∧ refresh.eligible = eligible) asked ?_
  intro d i same live next held
  obtain ⟨refresh, before, revision, marked, -⟩ | ⟨none', -⟩ := step_refresh held
  · rw [revision, marked]
    exact same refresh before
  · exact absurd none' live

theorem Refreshed.rests (h : Refreshed cfg c accountId clientId between installed later) :
    (c.run cfg (.query accountId clientId :: between ++ installed :: later)).accountBudgetRevision =
      some (c.run cfg
        (.query accountId clientId :: between ++ installed :: later)).accountActionRevision := by
  obtain ⟨refresh, installs⟩ := h.installs
  obtain ⟨alive, -⟩ := along_append.1 h.alive
  obtain ⟨-, quiet⟩ := along_append.1 h.quiet
  have asked : ∀ other, (c.step cfg (.query accountId clientId)).accountRefresh = some other →
      other.revision = c.revision ∧ other.eligible = true := by
    intro other held
    obtain ⟨old, before, -⟩ | ⟨-, -, rfl⟩ := step_refresh held
    · rw [h.idle] at before
      cases before
    · exact ⟨rfl, decide_eq_true h.ready⟩
  obtain ⟨-, eligible⟩ := refresh_kept alive asked refresh installs.held
  have start :
    (((c.step cfg (.query accountId clientId)).run cfg between).step cfg
    installed).accountBudgetRevision =
      some (((c.step cfg (.query accountId clientId)).run cfg between).step cfg
        installed).accountActionRevision := by
    obtain ⟨wallet, walletNs, row, nowNs, -, -, turn⟩ := installs.step_eq
    have still := h.stillReady
    rw [turn, installBoth_eq] at still ⊢
    rw [if_pos ⟨eligible, still⟩, installs.current.2.2.2]
    rfl
  have rest := quiet.2.keeps (P := fun d => d.accountBudgetRevision = some d.accountActionRevision)
    start
    fun d i current calm => step_current current calm
  unfold Account.run
  rw [List.cons_append, List.foldl_cons, List.foldl_append]
  exact rest

/-- Budget rests on a refresh. -/
theorem refreshed_of_rests {steps : List Step}
    (rests : (Account.run cfg {} steps).accountBudgetRevision ≠ none) :
    ∃ earlier accountId clientId between installed later,
      steps = earlier ++ (.query accountId clientId :: between ++ installed :: later) ∧
      Refreshed cfg (Account.run cfg {} earlier) accountId clientId between installed later := by
  obtain ⟨first, installed, later, rfl, without, sets, since⟩ :=
    last_set (P := fun c : Account => c.accountBudgetRevision ≠ none) (fun none' => none' rfl) rests
  have quiet : Along (Account.step cfg) (fun d i => ¬d.Disturbs cfg i)
      ((first.foldl (Account.step cfg) {}).step cfg installed) later := by
    apply since.imp
    intro d i both disturbs
    obtain ⟨calm, -⟩ | ⟨-, cleared⟩ | ⟨calm, -⟩ := @step_rests cfg d i
    · exact calm disturbs
    · exact both.2 cleared
    · exact calm disturbs
  obtain ⟨-, -, budget⟩ | ⟨-, cleared⟩ | @⟨refresh, calm, installs, eligible, ready, -⟩ :=
    @step_rests cfg (first.foldl (Account.step cfg) {}) installed
  · rw [budget] at sets
    exact absurd sets without
  · exact absurd cleared sets
  · obtain ⟨earlier, asked, between, rfl, idle, held, alive⟩ :=
      last_set (P := fun c : Account => c.accountRefresh ≠ none) (s := {}) (fun none' => none' rfl)
        (fun none' => Option.some_ne_none refresh (installs.held.symm.trans none'))
    rw [not_not] at idle
    rw [List.foldl_append, List.foldl_cons] at installs calm ready quiet
    obtain ⟨begun, starts⟩ := Option.ne_none_iff_exists'.1 held
    obtain ⟨old, before, -⟩ | ⟨-, ⟨accountId, clientId, rfl⟩, rfl⟩ := step_refresh starts
    · rw [idle] at before
      cases before
    have live : Along (Account.step cfg) (fun d _ => d.accountRefresh ≠ none)
        ((earlier.foldl (Account.step cfg) {}).step cfg (.query accountId clientId)) between :=
      alive.imp fun d i both => both.1
    have asked : ∀ other,
      ((earlier.foldl (Account.step cfg) {}).step cfg (.query accountId clientId)).accountRefresh =
        some other → other.revision = (earlier.foldl (Account.step cfg) {}).revision ∧
        other.eligible =
          decide ((earlier.foldl (Account.step cfg) {}).BudgetRefreshReady cfg) := by
      intro other now
      obtain rfl := Option.some.inj (starts.symm.trans now)
      exact ⟨rfl, rfl⟩
    obtain ⟨asOf, marked⟩ := refresh_kept live asked refresh installs.held
    have unchanged := installs.current.2.2.2.symm.trans asOf
    refine ⟨earlier, accountId, clientId, between, installed, later, by simp, idle, ?_, ?_,
      unchanged, ⟨_, installs⟩,
      ready, ?_⟩
    · exact of_decide_eq_true (marked.symm.trans eligible)
    · exact along_append.2
        ⟨live, fun none' => Option.some_ne_none refresh (installs.held.symm.trans none'), along_nil⟩
    · -- No step in between can disturb, since every one that does raises a revision.
      have before : Along (Account.step cfg) (fun d i => ¬d.Disturbs cfg i)
        (earlier.foldl (Account.step cfg) {})
          (.query accountId clientId :: between) :=
        along_of_stamp step_stamp (fun d i disturbs => step_marks d i (not_not.1 disturbs))
          (congrArg (fun asOf : Revision => asOf.1 + asOf.2.1 + asOf.2.2) unchanged)
      exact along_append.2 ⟨before, calm, quiet⟩

/-- Both components were observed no earlier than the request. -/
theorem Refreshed.observed {t : ℤ} (h : Refreshed cfg c accountId clientId between installed later)
    (clock : ∀ i ∈ between ++ installed :: later, ∀ ns ∈ i.clock, t ≤ ns) :
    Observed t (c.run cfg (.query accountId clientId :: between ++ installed :: later)) := by
  obtain ⟨refresh, installs⟩ := h.installs
  have asked : Staged t (c.step cfg (.query accountId clientId)) := by
    apply step_staged
    · intro old wallet ns held
      rw [h.idle] at held
      cases held
    · intro ns reads
      cases reads
  obtain ⟨first, rest⟩ := List.forall_mem_append.1 clock
  obtain ⟨now, after⟩ := List.forall_mem_cons.1 rest
  have reads {is : List Step} {d : Account} (late : ∀ i ∈ is, ∀ ns ∈ i.clock, t ≤ ns) :
      Along (Account.step cfg) (fun _ i => ∀ ns ∈ i.clock, t ≤ ns) d is :=
    along_of_forall fun i member _ => late i member
  have staged : Staged t ((c.step cfg (.query accountId clientId)).run cfg between) :=
    (reads first).keeps (P := Staged t) asked fun d i staged clock => step_staged staged clock
  have both := (reads after).keeps (P := fun d => Staged t d ∧ Observed t d)
    ⟨step_staged staged now, installs.observed staged now⟩
    fun d i both clock => ⟨step_staged both.1 clock, step_observed both.1 clock both.2⟩
  unfold Account.run
  rw [List.cons_append, List.foldl_cons, List.foldl_append]
  exact both.2

/-- New budget is ready exactly when no mutation is out, both components are current, and, once
there was an account action, they rest on a refresh that was asked for after the last of them and
that nothing has disturbed since. -/
theorem budget_causality (cfg : Config) (steps : List Step) :
    let c := Account.run cfg {} steps
    c.BudgetReady cfg ↔ c.BudgetRefreshReady cfg ∧ c.walletCurrent ∧ c.margin.current ∧
      c.margin.complete ∧
      (c.accountActionRevision = 0 ∨ ∃ earlier accountId clientId between installed later,
        steps = earlier ++ (.query accountId clientId :: between ++ installed :: later) ∧
        Refreshed cfg (Account.run cfg {} earlier) accountId clientId between installed later ∧
        ∀ t, (∀ i ∈ between ++ installed :: later, ∀ ns ∈ i.clock, t ≤ ns) → Observed t c) := by
  intro c
  unfold Account.BudgetReady
  refine and_congr_right fun ready => and_congr_right fun wallet => and_congr_right fun current =>
    and_congr_right fun complete => or_congr_right ?_
  constructor
  · intro rests
    obtain ⟨earlier, accountId, clientId, between, installed, later, rfl, refreshed⟩ :=
      @refreshed_of_rests cfg steps fun none' => Option.some_ne_none _
        (rests.symm.trans none')
    refine ⟨earlier, accountId, clientId, between, installed, later, rfl, refreshed, ?_⟩
    intro t clock
    show Observed t (List.foldl _ _ _)
    rw [List.foldl_append]
    exact refreshed.observed clock
  · rintro ⟨earlier, accountId, clientId, between, installed, later, rfl, refreshed, -⟩
    have rests := refreshed.rests
    unfold Account.run at rests
    rw [← List.foldl_append] at rests
    exact rests

def paperConfig : Config :=
  ⟨"BITFINEX-1", "BITFINEX", "XAUT", "tTESTXAUT:TESTUSDT", "USDT", id⟩

/-- A refresh that follows an account action of a client that has just connected; the stream moves
the wallet on. -/
def refreshedSteps : List Step :=
  let wallet : WalletBalance := ⟨"margin", "USDT", 1000, none, some 900⟩
  [.connect, .checkStreamGap, .wallet ⟨.ws, [wallet]⟩ 1, .connected, .setConnected true, .action {},
    .query "BITFINEX-1" none, .resume .start, .resume (.wallets (some [wallet]) 2),
    .resume (.positions (some []) 3), .wallet ⟨.wu, [wallet]⟩ 4]

theorem budget_causality_refreshed :
    (Account.run paperConfig {} refreshedSteps).accountActionRevision = 1 ∧
    (Account.run paperConfig {} refreshedSteps).BudgetReady paperConfig ∧
    ∃ earlier accountId clientId between installed later,
      refreshedSteps = earlier ++ (.query accountId clientId :: between ++ installed :: later) ∧
      Refreshed paperConfig (Account.run paperConfig {} earlier) accountId clientId between
        installed later := by
  have once : (Account.run paperConfig {} refreshedSteps).accountActionRevision = 1 := by
    decide +kernel
  have ready : (Account.run paperConfig {} refreshedSteps).BudgetReady paperConfig := by
    decide +kernel
  refine ⟨once, ready, ?_⟩
  obtain ⟨-, -, -, -,
    never | ⟨earlier, accountId, clientId, between, installed, later, same, refreshed, -⟩⟩ :=
    (budget_causality paperConfig refreshedSteps).1 ready
  · rw [once] at never
    cases never
  · exact ⟨earlier, accountId, clientId, between, installed, later, same, refreshed⟩

end Causality

end ArbNautilus.Bitfinex.AccountBudget
