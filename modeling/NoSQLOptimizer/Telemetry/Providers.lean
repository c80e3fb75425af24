import NoSQLOptimizer.QueryShapes.Registry

namespace NoSQLOptimizer.Telemetry

open Encoding QueryShapes

inductive TelemetrySource
  | queryStats
  | diagnosticLog
  | profiler
  | currentOp
  deriving DecidableEq

def TelemetrySource.value : TelemetrySource → String
  | .queryStats => "QUERY_STATS"
  | .diagnosticLog => "DIAGNOSTIC_LOG"
  | .profiler => "PROFILER"
  | .currentOp => "CURRENT_OP"

structure TelemetryObservation where
  source : TelemetrySource
  operationCount : Int
  database : String
  collection : String
  operation : String
  normalizedShape : Document
  successfulOperationCount : Option Int := none
  failureCount : Option Int := none
  timeoutCount : Option Int := none
  aggregateExecutionTimeMs : Option ℚ := none
  deriving DecidableEq

/-- What reading a document can raise. -/
inductive Raised
  | typeError
  | assertionError
  deriving DecidableEq

/-- `value.split(".", 1)`, both parts of it nonempty. -/
def splitNamespace (value : String) : Option (String × String) :=
  let database := value.toList.takeWhile (· ≠ '.')
  match value.toList.dropWhile (· ≠ '.') with
  | [] => none
  | _ :: collection =>
    if database ≠ [] ∧ collection ≠ [] then
      some (String.ofList database, String.ofList collection)
    else none

def namespaceOf : Option Value → Option (String × String)
  | some (.dict d) =>
    match d.lookup "db", d.lookup "coll" with
    | some (.str database), some (.str collection) =>
      if database ≠ "" ∧ collection ≠ "" then some (database, collection) else none
    | _, _ => none
  | some (.str value) => splitNamespace value
  | _ => none

def operationFromCommand (command : Document) : String :=
  (["find", "aggregate", "update", "delete", "insert"].find? (· ∈ command.names)).getD "unknown"

def numeric : Option Value → Option ℚ
  | some (.int n) => some n
  | some (.float q) => some q
  | _ => none

/-- `document.get(name, document.get(other))`. -/
def either (document : Document) (name other : String) : Option Value :=
  (document.lookup name).or (document.lookup other)

/-- The reported operation, or what the command says it is; a list or a dict is in no set. -/
def reportedOperation (command : Document) : Option Value → Except Raised String
  | none => .ok (operationFromCommand command)
  | some .none => .ok (operationFromCommand command)
  | some (.str s) => .ok (if s = "command" then operationFromCommand command else s)
  | some (.bool b) => .ok (if b then "True" else "False")
  | some (.int n) => .ok (toString n)
  | some (.float q) => .ok (toString q)
  | some (.other _ text) => .ok text
  | some (.list _) => .error .typeError
  | some (.dict _) => .error .typeError

def observation (source : TelemetrySource) (count : Int) (ns : String × String)
    (operation : String) (shape : Value) (successful failure timeout : Option Int)
    (execution : Option ℚ) : Except Raised TelemetryObservation :=
  match Value.ofJson (canonicalize shape) with
  | .dict normalized => .ok ⟨source, max count 0, ns.1, ns.2, operation, normalized, successful,
      failure, timeout, execution⟩
  | _ => .error .assertionError

/-- `int(holds)`, of an operation that has completed. -/
def completedCount (source : TelemetrySource) (holds : Bool) : Option Int :=
  if source = .diagnosticLog ∨ source = .profiler then some (if holds then 1 else 0) else none

def timedOut : Option Value → Bool
  | some (.str name) => name.toLower ∈ ["maxtimemsexpired", "networktimeoutexception"]
  | _ => false

def duration (document : Document) : Option ℚ :=
  (numeric (either document "durationMillis" "millis")).or
    ((numeric (document.lookup "microsecs_running")).map (· / 1000))

/-- The command of the document: an empty one when there is none. -/
def commandOf (document : Document) : Document :=
  match either document "command" "query" with
  | some (.dict command) => command
  | _ => .nil

/-- `_from_command_document`: nothing is observed where there is no namespace. -/
def fromCommandDocument (source : TelemetrySource) (document : Document) :
    Except Raised (Option TelemetryObservation) :=
  match namespaceOf (document.lookup "ns") with
  | none => .ok none
  | some ns => do
    let command := commandOf document
    let operation ← reportedOperation command (either document "op" "type")
    let failed := ["errCode", "errName", "errMsg"].any (· ∈ document.names)
    let timeout := timedOut (document.lookup "errName")
    let o ← observation source 1 ns operation (.dict command) (completedCount source (!failed))
      (completedCount source failed) (completedCount source timeout) (duration document)
    return some o

/-- What is observed of a document has the structure of its command. -/
theorem normalizedShape_of_fromCommandDocument {source : TelemetrySource} {document : Document}
    {o : TelemetryObservation} (h : fromCommandDocument source document = .ok (some o)) :
    o.normalizedShape = (commandOf document).structural := by
  unfold fromCommandDocument at h
  cases hns : namespaceOf (document.lookup "ns") with
  | none => simp [hns] at h
  | some ns =>
    cases hop : reportedOperation (commandOf document) (either document "op" "type") with
    | error e => simp [hns, hop, bind, Except.bind] at h
    | ok operation =>
      have hshape : Value.ofJson (canonicalize (.dict (commandOf document))) =
          .dict (commandOf document).structural := rfl
      simp only [hns, hop, bind, Except.bind, observation, hshape, pure, Except.pure,
        Except.ok.injEq, Option.some.injEq] at h
      rw [← h]

end NoSQLOptimizer.Telemetry
