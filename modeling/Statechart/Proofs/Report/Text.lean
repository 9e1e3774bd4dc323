import Statechart.Proofs.Machine.Amendment
import Statechart.Proofs.Report.View
import Statechart.Report.Text

namespace Statechart

variable {S E F X L W : Type} [Describe S] [Describe E]

def indentedLine (depth : Nat) (text : String) : String :=
  String.ofList (List.replicate (4 * depth) ' ') ++ text ++ "\n"

/-- What is written of a view apart from those inside it: a headline, and one level deeper its actions and its
    transitions. -/
def StateView.ownLines (depth : Nat) : StateView S E → List String
  | .node id initial? history entry exit transitions _ =>
    indentedLine depth (describe id ++ ": initial state = " ++ describeOption initial? ++ " history type = " ++
        history.name) ::
      indentedLine (depth + 1) ("entry action:" ++ nameList entry) ::
      indentedLine (depth + 1) ("exit action:" ++ nameList exit) ::
      transitions.map fun transition => indentedLine (depth + 1) transition.line

namespace TextReport

variable {sink : TextReport} {depth : Nat}

def extend (sink : TextReport) (lines : List String) : TextReport := ⟨sink.output ++ String.join lines⟩

theorem extend_extend (sink : TextReport) (first second : List String) :
    (sink.extend first).extend second = sink.extend (first ++ second) := by
  unfold extend
  rw [String.join_append, String.append_assoc]

theorem extend_nil (sink : TextReport) : sink.extend [] = sink := by
  unfold extend
  rw [String.join_nil, String.append_empty]

theorem line_eq (sink : TextReport) (depth : Nat) (text : String) :
    sink.line depth text = sink.extend [indentedLine depth text] := by
  unfold line extend
  rw [String.join_cons, String.join_nil, String.append_empty]
  rfl

theorem foldl_line {α : Type} (items : List α) (text : α → String) (sink : TextReport) (depth : Nat) :
    items.foldl (fun sink item => sink.line depth (text item)) sink =
      sink.extend (items.map fun item => indentedLine depth (text item)) := by
  induction items generalizing sink with
  | nil => exact (extend_nil sink).symm
  | cons item rest ih => rw [List.foldl_cons, ih, line_eq, extend_extend, List.map_cons, List.singleton_append]

theorem state_eq (sink : TextReport) (depth : Nat) (view : StateView S E) :
    sink.state depth view = (sink.extend (view.ownLines depth)).states (depth + 1) view.subs := by
  cases view with
  | node id initial? history entry exit transitions subs =>
    rw [state, foldl_line]
    simp only [line_eq, extend_extend, List.append_assoc]
    rfl

theorem states_eq {views : List (StateView S E)} {lines : StateView S E → List String}
    (each : ∀ view ∈ views, ∀ sink : TextReport, sink.state depth view = sink.extend (lines view)) (sink : TextReport) :
    sink.states depth views = sink.extend (views.flatMap lines) := by
  induction views generalizing sink with
  | nil => exact (extend_nil sink).symm
  | cons view rest ih =>
    rw [states, each view (List.mem_cons_self ..), ih fun other member => each other (List.mem_cons_of_mem _ member),
      extend_extend, List.flatMap_cons]

end TextReport

namespace Forest

variable [DecidableEq S] {f : Forest S E F} {view : StateView S E}

theorem state_shown (h : f.Ranked f.level) (view : StateView S E) (shown : ∀ inner ∈ view.flat, f.Shows inner)
    (sink : TextReport) : sink.state (f.level view.id + 1) view =
      sink.extend (view.flat.flatMap fun inner => inner.ownLines (f.level inner.id + 1)) := by
  induction view using StateView.induct generalizing sink with
  | node view ih =>
    have subs := (shown view view.mem_flat_self).subs
    have inside : ∀ sub ∈ view.subs, ∀ sink : TextReport, sink.state (f.level view.id + 1 + 1) sub =
        sink.extend (sub.flat.flatMap fun inner => inner.ownLines (f.level inner.id + 1)) := by
      intro sub member sink
      have deeper : f.level sub.id = f.level view.id + 1 := h.rank_sub (h.sub_iff.mp (subs ▸ List.mem_map_of_mem member))
      rw [← deeper]
      exact ih sub member (ShowsAll.subs shown sub member) sink
    rw [TextReport.state_eq, TextReport.states_eq inside, TextReport.extend_extend, StateView.flat_eq, List.flatMap_cons,
      List.flatMap_assoc]

theorem states_shown (h : f.Ranked f.level) (sink : TextReport) : sink.states 1 f.views = sink.extend
    ((StateView.flatAll f.views).flatMap fun view => view.ownLines (f.level view.id + 1)) := by
  obtain ⟨ids, shown⟩ := views_shows h
  have each : ∀ view ∈ f.views, ∀ sink : TextReport, sink.state 1 view =
      sink.extend (view.flat.flatMap fun inner => inner.ownLines (f.level inner.id + 1)) := by
    intro view member sink
    have root : view.id ∈ f.roots := ids ▸ List.mem_map_of_mem member
    have top : f.level view.id = 0 := h.rank_root (Option.isNone_iff_eq_none.mp (List.mem_filter.mp root).2)
    rw [← state_shown h view (shown view member), top]
  rw [TextReport.states_eq each, StateView.flatAll_eq, List.flatMap_assoc]

end Forest

namespace Run

variable [DecidableEq S] [DecidableEq E] [DecidableEq X]

/-- A report shows every state once, where it stands in the hierarchy, with all its transitions, and its text comes out
    the same whatever was written before. -/
theorem callAll_reports (config : Config) (host : Host S E F X L W) (b : Behaviour S E F X W)
    (calls : List (Call S E F X L)) :
    let m := ((start config host).callAll b calls).machine
    let f := m.forest
    let views := StateView.flatAll m.report.states
    f.views? = some m.report.states ∧ f.keys.Nodup ∧ (views.map StateView.id).Perm f.keys ∧
    m.report.states.map StateView.id = f.keys.filter (fun s => (f.super? s).isNone) ∧
    (∀ before after, calls = before ++ after → ((start config host).callAll b before).machine.forest.keys <+: f.keys) ∧
    (∀ view ∈ views, f.Shows view ∧ (∀ c, c ∈ view.subs.map StateView.id ↔ f.super? c = some view.id) ∧
      view.subs.map StateView.id =
        ((group Outline.parent (outlines b (start config host) calls) view.id).flatMap fun d => d.subs.eraseDups) ∧
      let accepted := group (fun edge => edge.2.source) (registrations b (start config host) calls) view.id
      view.transitions = (grouped Prod.fst accepted).map TransitionView.ofEdge ∧
        (grouped Prod.fst accepted).Perm accepted) ∧
    ∀ used : TextReport, (used.write m.report).output = String.join
      (indentedLine 0 (m.name ++ ": initial state = " ++ describeOption m.initial?) ::
        views.flatMap fun view => view.ownLines (f.level view.id + 1)) := by
  intro m f views
  have wf : m.WellFormed := callAll_wellFormed b (r := start config host) (Machine.wellFormed_ofConfig config) calls
  have tree : f.Ranked f.level := wf.tree.toRanked
  obtain ⟨ids, shown⟩ := Forest.views_shows tree
  refine ⟨Forest.views?_eq tree, tree.keys_nodup, Forest.views_perm tree, ids, ?_, ?_, ?_⟩
  · rintro before after rfl
    have earlier := callAll_wellFormed b (r := start config host) (Machine.wellFormed_ofConfig config) before
    show _ <+: ((start config host).callAll b (before ++ after)).machine.forest.keys
    rw [callAll_append]
    exact callAll_prefix_keys earlier b after
  · intro view member
    have shows := shown.flatAll view member
    have transitions : (f.node view.id).transitions = _ :=
      callAll_transitions b (r := start config host) (Machine.wellFormed_ofConfig config) calls view.id
    have listed : view.transitions = (TransitionTable.edges (f.node view.id).transitions).map TransitionView.ofEdge := by
      conv_lhs => rw [shows.whole]
      rfl
    refine ⟨shows, fun c => ?_, ?_, ?_, grouped_perm _ _⟩
    · rw [shows.subs]
      exact tree.sub_iff
    · rw [shows.subs]
      exact callAll_subs b (r := start config host) (Machine.wellFormed_ofConfig config) calls view.id
    · rw [listed, transitions]
      exact congrArg _ (TransitionTable.edges_registerAll _)
  · intro used
    unfold TextReport.write
    dsimp only
    rw [TextReport.line_eq]
    show (TextReport.states _ 1 f.views).output = _
    rw [Forest.states_shown tree, TextReport.extend_extend]
    exact String.empty_append ..

end Run

end Statechart
