import PoolExchange.Store

/-!
# Store — do the records agree?

For every pool, the units and the pending amounts of its providers add up to the pool's own, and
the pool is sound with its synthetic units.  `audit` lists every disagreement, pool by pool.
-/

namespace PoolExchange

/-- A disagreement between the records. -/
inductive Finding
  | unsound (pool : Asset) (reason : InputError)
  | units (pool : Asset) (own providers : Amount)
  | pending (pool : Asset) (side : PoolSide) (own providers : Amount)
deriving DecidableEq, Repr

def Finding.text : Finding → String
  | .unsound pool reason => pool.text ++ ": " ++ reason.message
  | .units pool own providers =>
    pool.text ++ ": pool lp units " ++ own.text ++ " != provider units " ++ providers.text
  | .pending pool side own providers =>
    pool.text ++ ": pending " ++ side.name ++ " " ++ own.text ++ " != provider pending " ++
      providers.text

/-- A short fixed name of the kind of a finding. -/
def Finding.code : Finding → String
  | .unsound .. => "InvalidBalance"
  | .units .. => "UnitMismatch"
  | .pending .. => "PendingMismatch"

namespace Store

/-- The finding that two totals differ, if they do. -/
def differ (own providers : Amount) (finding : Finding) : List Finding :=
  if own = providers then [] else [finding]

def auditPool (s : Store) (pool : Pool) : List Finding :=
  let pool := pool.withSynths (s.supply pool.asset)
  let providers := s.providersOf pool.asset
  let units := Amount.sum (providers.map Provider.units)
  let native := Amount.sum (providers.map Provider.pendingNative)
  let asset := Amount.sum (providers.map Provider.pendingAsset)
  let soundness :=
    match pool.validate with
    | .ok _ => []
    | .error e => [Finding.unsound pool.asset e]
  soundness ++ differ pool.lpUnits units (.units pool.asset pool.lpUnits units) ++
    differ pool.pendingNative native (.pending pool.asset .native pool.pendingNative native) ++
    differ pool.pendingAsset asset (.pending pool.asset .asset pool.pendingAsset asset)

def audit (s : Store) : List Finding := s.pools.values.flatMap s.auditPool

def validate (s : Store) : Except StoreError Unit :=
  let findings := s.audit
  if findings.isEmpty then .ok () else .error (.inconsistent (findings.map Finding.text))

end Store

end PoolExchange
