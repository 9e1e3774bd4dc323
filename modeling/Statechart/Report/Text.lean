import Statechart.Report

namespace Statechart

variable {S E : Type} [Describe S] [Describe E]

def nameList (names : List String) : String :=
  if names.isEmpty then "" else " " ++ String.intercalate ", " names

def TransitionView.line (view : TransitionView S E) : String :=
  describe view.event ++ " -> " ++ (view.target?.map describe).getD "internal" ++ " actions:" ++
    nameList view.actions ++ " guard:" ++ nameList view.guard?.toList

structure TextReport where
  output : String

namespace TextReport

def blank : TextReport := ⟨""⟩

def line (sink : TextReport) (depth : Nat) (text : String) : TextReport :=
  ⟨sink.output ++ (String.ofList (List.replicate (4 * depth) ' ') ++ text ++ "\n")⟩

mutual

/-- Writes a state, one level below it its actions and transitions, and then its sub-states. -/
def state (sink : TextReport) (depth : Nat) : StateView S E → TextReport
  | .node id initial? history entry exit transitions subs =>
    let sink := sink.line depth (describe id ++ ": initial state = " ++ describeOption initial? ++ " history type = " ++
      history.name)
    let sink := sink.line (depth + 1) ("entry action:" ++ nameList entry)
    let sink := sink.line (depth + 1) ("exit action:" ++ nameList exit)
    let sink := transitions.foldl (fun sink transition => sink.line (depth + 1) transition.line) sink
    sink.states (depth + 1) subs

def states (sink : TextReport) (depth : Nat) : List (StateView S E) → TextReport
  | [] => sink
  | view :: views => (sink.state depth view).states depth views

end

def write (sink : TextReport) (report : Report S E) : TextReport :=
  let sink := { sink with output := "" }
  let sink := sink.line 0 (report.name ++ ": initial state = " ++ describeOption report.initial?)
  sink.states 1 report.states

end TextReport

end Statechart
