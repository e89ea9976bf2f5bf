import ScopeGraph.Json.Basic
import ScopeGraph.Report.Table

/-!
# The report of a run
-/
set_option autoImplicit false

namespace ScopeGraph

structure RunReport where
  sourcePath : String
  functions : Nat
  classes : Nat
  /-- Nested declarations. -/
  members : Nat
  chains : Nat
  exports : Nat
  anonymous : Nat
  unresolved : Nat
  operations : Nat
  artifactsWritten : Nat
  artifactsFailed : Nat
  deriving DecidableEq, Repr

namespace RunReport

def display (report : RunReport) : String :=
  s!"Run Report: {report.sourcePath}\n" ++
  s!"  Functions: {report.functions}\n" ++
  s!"  Classes: {report.classes}\n" ++
  s!"  Members: {report.members}\n" ++
  s!"  Call chains: {report.chains}\n" ++
  s!"  Exports: {report.exports}\n" ++
  s!"  Anonymous names: {report.anonymous}\n" ++
  s!"  Unresolved callees: {report.unresolved}\n" ++
  s!"  Graph operations: {report.operations}\n" ++
  s!"  Artifacts: {report.artifactsWritten} written, {report.artifactsFailed} failed"

def rows (report : RunReport) : List Table.Row :=
  [⟨"Functions", toString report.functions⟩,
   ⟨"Classes", toString report.classes⟩,
   ⟨"Members", toString report.members⟩,
   ⟨"Call chains", toString report.chains⟩,
   ⟨"Exports", toString report.exports⟩,
   ⟨"Anonymous names", toString report.anonymous⟩,
   ⟨"Unresolved callees", toString report.unresolved⟩,
   ⟨"Graph operations", toString report.operations⟩,
   ⟨"Artifacts",
     s!"{report.artifactsWritten} written / {report.artifactsFailed} failed"⟩]

def table (report : RunReport) : String := Table.draw report.rows

def toJson (report : RunReport) : Json :=
  .object
    [("source_path", .string report.sourcePath),
     ("functions", .number report.functions),
     ("classes", .number report.classes),
     ("members", .number report.members),
     ("call_chains", .number report.chains),
     ("exports", .number report.exports),
     ("anonymous", .number report.anonymous),
     ("unresolved_callees", .number report.unresolved),
     ("operations", .number report.operations),
     ("artifacts_written", .number report.artifactsWritten),
     ("artifacts_failed", .number report.artifactsFailed)]

end RunReport
end ScopeGraph
