import PrivateFootage.Command.Arguments
import PrivateFootage.Command.Console
import PrivateFootage.Privacy.Params

/-!
# Bounds from the command line

One value is a bound for the whole scene; several are one bound for each region.
-/

namespace PrivateFootage.Command

/-- The bound that a list of values gives. -/
def boundOfValues (side : Side) : List Float → Except Failure (Bound Float)
  | [] => .error (.missingBound side)
  | [value] => .ok (.scene value)
  | values => .ok (.perSplit values)

/-- The privacy parameters of window arguments, without regions. -/
def WindowArguments.privacy (arguments : WindowArguments) :
    Except Failure (PrivacyParams Float) := do
  let lower ← boundOfValues .lower arguments.lower
  let upper ← boundOfValues .upper arguments.upper
  .ok { epsilon := arguments.epsilon, lower, upper, segments := arguments.segments }

end PrivateFootage.Command
