import Templating.State.Budget

namespace Templating

inductive EvalError where
  | undefinedVariable (path : String)
  | resourceExceeded (resource : Resource)
  | pendingValue
  | custom (text : String)
  deriving DecidableEq

def EvalError.message : EvalError → String
  | .undefinedVariable path => "undefined variable: " ++ path
  | .resourceExceeded resource => resource.text ++ " limit exceeded"
  | .pendingValue => "cannot resolve a pending value in synchronous mode"
  | .custom text => text

end Templating
