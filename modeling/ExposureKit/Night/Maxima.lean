/-!
# Largest identifiers

Of the exposures of a night the latest has the largest multi-run and, within it,
the largest run. `RunMaxima` keeps these two numbers while exposures are observed.
-/

namespace ExposureKit

/-- The largest multi-run observed, and the largest run in that multi-run. -/
structure RunMaxima where
  /-- The largest multi-run. -/
  multiRun : UInt32
  /-- The largest run in that multi-run. -/
  run : UInt32
  deriving DecidableEq, Repr

namespace RunMaxima

/-- Observes one more exposure: a larger multi-run starts its runs afresh, and an
equal one can only raise the run. -/
def observe (maxima : RunMaxima) (multiRun run : UInt32) : RunMaxima :=
  if maxima.multiRun < multiRun then ⟨multiRun, run⟩
  else if multiRun = maxima.multiRun ∧ maxima.run < run then { maxima with run }
  else maxima

end RunMaxima

end ExposureKit
