import Statechart.Argument
import Statechart.Text.Quoted

namespace Statechart

inductive Signature where
  | noArgument
  | typed (type : ArgumentType)
  | passThrough
deriving DecidableEq

def Signature.display : Signature → String
  | noArgument => "fn()"
  | typed type => "fn(&" ++ type.name ++ ")"
  | passThrough => "fn(&EventArgs)"

def Signature.summary : Signature → String
  | noArgument => "NoArgument"
  | typed type => "Typed(" ++ Text.quote type.name ++ ")"
  | passThrough => "PassThrough"

/-- A guard or an action: a name for reports, a signature, and the code that is run. -/
structure Callable (F : Type) where
  name : String
  signature : Signature
  code : F
deriving DecidableEq

def Callable.anonymous : String := "anonymous"

inductive ArgumentError where
  | arityMismatch (callable : String) (signature : Signature) (arguments : List ArgumentType)
  | typeMismatch (callable : String) (signature : Signature) (position : Nat) (argument : ArgumentType)
deriving DecidableEq

def ArgumentError.message : ArgumentError → String
  | arityMismatch callable signature arguments =>
    callable ++ " (" ++ signature.display ++ ") expects 1 argument(s) but the event carried " ++
      toString arguments.length ++ " [" ++ String.intercalate ", " (arguments.map ArgumentType.name) ++ "]"
  | typeMismatch callable signature position argument =>
    "argument " ++ toString position ++ " of type `" ++ argument.name ++ "` cannot be passed to " ++
      callable ++ " (" ++ signature.display ++ ")"

/-- What code receives when it runs. -/
inductive Input where
  | nothing
  | one (argument : Argument)
  | all (arguments : Arguments)

namespace Callable

variable {F : Type}

/-- Selects what the code receives. Code that takes one value refuses any other number of values, and a
    value of another type. -/
def receive (callable : Callable F) (arguments : Arguments) : Except ArgumentError Input :=
  match callable.signature with
  | .noArgument => .ok .nothing
  | .passThrough => .ok (.all arguments)
  | .typed type =>
    match arguments with
    | [argument] =>
      if argument.type = type then .ok (.one argument)
      else .error (.typeMismatch callable.name callable.signature 0 argument.type)
    | _ => .error (.arityMismatch callable.name callable.signature arguments.types)

def summary (heading : String) (callable : Callable F) : String :=
  heading ++ " \x7b name: " ++ Text.quote callable.name ++ ", signature: " ++ callable.signature.summary ++ " \x7d"

end Callable

end Statechart
