namespace Templating

inductive Sink where
  /-- The pieces written so far, newest first. -/
  | kept (pieces : List String)
  | silent
  deriving DecidableEq

namespace Sink

def empty : Sink := .kept []

def write (text : String) : Sink → Sink
  | .kept pieces => .kept (text :: pieces)
  | .silent => .silent

def output : Sink → String
  | .kept pieces => pieces.foldr (fun piece before => before ++ piece) ""
  | .silent => ""

theorem output_write_kept (pieces : List String) (text : String) :
    ((Sink.kept pieces).write text).output = (Sink.kept pieces).output ++ text := rfl

end Sink
end Templating
