import Mathlib.Algebra.BigOperators.Group.List.Basic
import Mathlib.Algebra.Field.Rat
import Mathlib.Algebra.Ring.Int.Defs
import Mathlib.Data.List.Dedup
import Mathlib.Data.List.Sort
import Mathlib.Data.Rat.Defs
import Mathlib.Order.Lattice

namespace NoSQLOptimizer.Workloads

/-- A named fraction of the operations or of the execution time. -/
structure Share where
  name : String
  fraction : ℚ
  deriving DecidableEq

structure QueryShapeWorkload where
  shapeHash : String
  operationCount : Int
  executionTimeMs : ℚ
  explicitlyAffected : Bool := false
  manuallyCritical : Bool := false
  deriving DecidableEq

/-- The facts by name, in order. -/
structure EnvironmentFingerprint where
  facts : List (String × String)

/-- What the builder makes, of global metrics `μ` that it does not look into. -/
structure BuiltSnapshot (μ : Type) where
  operationMix : List Share
  queryShapeShares : List Share
  executionTimeShares : List Share
  globalMetrics : μ
  criticalQueryShapes : List String
  environmentFingerprint : EnvironmentFingerprint

namespace WorkloadSnapshotBuilder

def fraction (value total : ℚ) : ℚ := if total ≠ 0 then value / total else 0

/-- `_shares` of the counts of each name. -/
def shares (names : List String) : List Share :=
  (names.dedup.insertionSort (· ≤ ·)).map
    (fun name => ⟨name, fraction (names.count name) names.length⟩)

def isCritical (shape : QueryShapeWorkload) (totalOperations : Int) (totalExecutionTime : ℚ) :
    Bool :=
  shape.explicitlyAffected || shape.manuallyCritical ||
    decide (1 / 100 ≤ fraction shape.operationCount totalOperations) ||
    decide (1 / 100 ≤ fraction shape.executionTimeMs totalExecutionTime)

def totalOperations (shapes : List QueryShapeWorkload) : Int := (shapes.map (·.operationCount)).sum

def totalExecutionTime (shapes : List QueryShapeWorkload) : ℚ :=
  (shapes.map (·.executionTimeMs)).sum

/-- `measurements` are the types of the operations that were measured. -/
def build {μ : Type} (measurements : List String) (shapes : List QueryShapeWorkload)
    (globalMetrics : μ) (environment : EnvironmentFingerprint) : BuiltSnapshot μ where
  operationMix := shares measurements
  queryShapeShares := shapes.map
    (fun shape => ⟨shape.shapeHash, fraction shape.operationCount (totalOperations shapes)⟩)
  executionTimeShares := shapes.map
    (fun shape => ⟨shape.shapeHash, fraction shape.executionTimeMs (totalExecutionTime shapes)⟩)
  globalMetrics := globalMetrics
  criticalQueryShapes := (shapes.filter
    (fun shape => isCritical shape (totalOperations shapes) (totalExecutionTime shapes))).map
      (·.shapeHash)
  environmentFingerprint := environment

section

variable {μ : Type} {shapes shapes' : List QueryShapeWorkload}

theorem totalOperations_perm (h : shapes.Perm shapes') :
    totalOperations shapes = totalOperations shapes' :=
  (h.map _).sum_eq

theorem totalExecutionTime_perm (h : shapes.Perm shapes') :
    totalExecutionTime shapes = totalExecutionTime shapes' :=
  (h.map _).sum_eq

/-- The order in which the shapes are given does not matter. -/
theorem build_perm (h : shapes.Perm shapes') (measurements : List String) (globalMetrics : μ)
    (environment : EnvironmentFingerprint) :
    (build measurements shapes globalMetrics environment).criticalQueryShapes.Perm
      (build measurements shapes' globalMetrics environment).criticalQueryShapes := by
  simp only [build, totalOperations_perm h, totalExecutionTime_perm h]
  exact (h.filter _).map _

end

end WorkloadSnapshotBuilder

end NoSQLOptimizer.Workloads
