-- SUMMARY: Criteria configs and criteria: the investment thesis of a tenant, versioned.
import DealScreening.Models.Base
import DealScreening.Models.Enums

/-- A version of a tenant's criteria. -/
structure CriteriaConfig where
  id : Uuid
  tenantId : Uuid
  version : Nat
  isActive : Bool
  name : PgText
  deriving DecidableEq

/-- A single rule of a config. `targetValue` is JSON text. -/
structure Criterion where
  configId : Uuid
  fieldName : PgText
  criterionType : CriterionType
  operator : PgText
  targetValue : PgText
  weight : Float
  label : PgText
  deriving DecidableEq
