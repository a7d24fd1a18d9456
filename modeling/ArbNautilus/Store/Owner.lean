import ArbNautilus.Base.Text
import ArbNautilus.Store.Run
import Mathlib.Data.List.Sort

namespace ArbNautilus.Store

open Base

inductive ViewKey where
  | bid
  | ask
  | taker
deriving DecidableEq, Repr

/-- A source order's accounts, and the order itself when it must not share a balance. -/
structure Route where
  sourceAccountId : Option String
  sourceClientId : Option String
  hedgeAccountId : Option String
  hedgeClientId : Option String
  isolatedSourceOrderId : Option String
deriving DecidableEq

structure Allocation where
  fillKey : String
  route : Route
  signedFillOunces : ℚ
  allocatedOunces : ℚ
deriving DecidableEq

structure LegacyOrder where
  clientOrderId : String
  direction : SourceDirection
  route : Route
  filledOunces : ℚ
  fillKeys : List String
  intentIds : List String
  allocatedOunces : ℚ
deriving DecidableEq

def SourceDirection.view : SourceDirection → ViewKey
  | .long => .bid
  | .short => .ask

def SourceDirection.sign : SourceDirection → ℚ
  | .long => 1
  | .short => -1

/-- An absent or empty identity. -/
def missing (id : Option String) : Prop := id = none ∨ id = some ""

instance (id : Option String) : Decidable (missing id) := inferInstanceAs (Decidable (_ ∨ _))

def route (record : SourceOrderRecord) : Route where
  sourceAccountId := record.sourceAccountId
  sourceClientId := record.sourceClientId
  hedgeAccountId := record.hedgeAccountId
  hedgeClientId := record.hedgeClientId
  isolatedSourceOrderId :=
    if missing record.sourceAccountId ∨ missing record.hedgeAccountId ∨
        record.hedgePositionId ≠ none then
      some record.clientOrderId
    else none

/-- What an owner is built with and never changes. -/
structure OwnerConfig where
  sharedStrategyIds : Option (String × String)
  residualLimit : ℚ
  carryRoute : Option Route
  legacySources : Option (List (String × String))
  legacyOrders : List LegacyOrder

def OwnerConfig.viewKeys (cfg : OwnerConfig) : List ViewKey :=
  if cfg.sharedStrategyIds.isSome then [.bid, .ask, .taker] else [.bid, .ask]

/-- The part of an owner that a snapshot restores. -/
structure Book where
  views : ViewKey → StoreState
  allocations : List Allocation
  cycleFreezeOnly : Bool

def Book.empty : Book := ⟨fun _ => .emptyState, [], false⟩

def Book.setView (b : Book) (v : ViewKey) (s : StoreState) : Book :=
  { b with views := Function.update b.views v s }

namespace OwnerConfig

variable (cfg : OwnerConfig)

/-- The view whose seen fills hold a key; the last one, where the keys of two views meet.
Validation leaves no allocation without one. -/
def viewOfFill (b : Book) (fillKey : String) : ViewKey :=
  (cfg.viewKeys.reverse.find? fun v => fillKey ∈ (b.views v).seenSourceFills).getD .bid

def legacyBefore (a b : LegacyOrder) : Prop :=
  a.direction = .long ∧ b.direction = .short ∨
    a.direction = b.direction ∧ a.clientOrderId ≤ b.clientOrderId

instance (a b : LegacyOrder) : Decidable (legacyBefore a b) :=
  inferInstanceAs (Decidable (_ ∨ _))

/-- A route's balance, and the view that holds it. -/
abbrev Balances := Dict Route (ℚ × ViewKey)

def addBalance (balances : Balances) (route : Route) (amount : ℚ) (view : ViewKey) : Balances :=
  balances.set route (((balances.get? route).map Prod.fst).getD 0 + amount, view)

/-- A fixed historical projection of the migrated orders, not their fill order. -/
def checkpointBalances : Balances :=
  (cfg.legacyOrders.insertionSort legacyBefore).foldl (fun balances item =>
    if item.filledOunces = 0 ∧ item.allocatedOunces = 0 then balances
    else addBalance balances item.route
      (item.filledOunces * item.direction.sign - item.allocatedOunces) item.direction.view) .empty

def routeBalances (b : Book) : Balances :=
  b.allocations.foldl (fun balances item =>
    addBalance balances item.route (item.signedFillOunces - item.allocatedOunces)
      (cfg.viewOfFill b item.fillKey)) cfg.checkpointBalances

/-- A route's unallocated residual. -/
def residual (b : Book) (route : Route) : ℚ :=
  (((cfg.routeBalances b).get? route).map Prod.fst).getD 0

/-- `rounding_residual_ounces` of a view: the balances of the routes it filled last. -/
def viewResidual (b : Book) (v : ViewKey) : ℚ :=
  (cfg.routeBalances b).total fun balance => if balance.2 = v then balance.1 else 0

def viewNetUnhedged (b : Book) (v : ViewKey) : ℚ :=
  (b.views v).netUnhedged (cfg.viewResidual b v)

def carryResidualOunces (b : Book) : ℚ :=
  match cfg.carryRoute with
  | none => 0
  | some route => cfg.residual b route

def sourceBalanceIsAdmissible (b : Book) : Bool :=
  (cfg.routeBalances b).entries.all fun (route, balance) =>
    balance.1 = 0 ∨ (some route = cfg.carryRoute ∧ |balance.1| ≤ cfg.residualLimit)

/-- A view's own test of its balance. -/
def viewIsAdmissible (b : Book) (v : ViewKey) : Bool :=
  cfg.sourceBalanceIsAdmissible b ∧ cfg.viewNetUnhedged b v = cfg.viewResidual b v ∧
    (b.views v).hedgeIntents.values.all fun intent =>
      intent.hedgeQuantityOunces = intent.hedgeFilledOunces

/-- The intents of every view under their fill keys. -/
def intentEntries (b : Book) : List (String × (ViewKey × HedgeIntent)) :=
  cfg.viewKeys.flatMap fun v => (b.views v).hedgeIntents.values.map fun i => (i.fillKey, (v, i))

/-- Hold the complete earliest intent, including gaps between its bound legs. -/
def firstUnfinishedHedge (b : Book) : Option (ViewKey × HedgeIntent) :=
  let intents := Dict.ofList (cfg.intentEntries b)
  let legacyIds := cfg.legacyOrders.flatMap (·.intentIds)
  if intents.values.any fun (_, intent) =>
      intent.intentId ∈ legacyIds ∧ intent.status ≠ .completed then none
  else b.allocations.findSome? fun allocation =>
    (intents.get? allocation.fillKey).filter fun (_, intent) => intent.status ≠ .completed

def hedgeDispatchReady (b : Book) (v : ViewKey) (intentId : String) : Bool :=
  cfg.sharedStrategyIds = none ∨
    (cfg.firstUnfinishedHedge b).any fun (view, intent) => view = v ∧ intent.intentId = intentId

/-- Allocate a fill against its route's residual. -/
def allocate (b : Book) (record : SourceOrderRecord) (fillKey : String) (signedFill : ℚ) :
    Book × ℤ :=
  let combined := cfg.residual b (route record) + signedFill
  let allocated := roundHedgeOunces combined
  ({ b with allocations := b.allocations ++ [⟨fillKey, route record, signedFill, allocated⟩] },
    allocated)

end OwnerConfig

end ArbNautilus.Store
