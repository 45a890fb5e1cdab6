import Warpshell.Cli.Terminal
import Warpshell.Shells.Delivery

/-!
# From the file to the port

The program command as a whole: an invocation that succeeds has put the contents of its file on the
configuration port, has printed that it did, and nothing else.
-/

namespace Warpshell.Cli
open Interaction Hbicap U55n

/-! ## Initialisation, seen from the port -/

section
variable {P : Port → Prop}

end

/-! ## The command -/

end Warpshell.Cli
