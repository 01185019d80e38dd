import QuoteStack.Proofs.Run.Moment
import QuoteStack.Proofs.Session.Invariant

/-!
Depth over sessions. No action of a host changes how many dispatches are in progress, so between the
steps of a session there are none, in any tree of environments. The main statement joins this to
what the moments of a single run show.
-/

namespace QuoteStack

open Machine

/-! ## Actions -/

theorem counters_warn (m : Machine) (warning? : Option Program.Warning) :
    (m.warn warning?).counters = m.counters := by
  cases warning? <;> rfl

theorem counters_executeStep (m : Machine) (instruction : Instruction) :
    (m.executeStep instruction).machine.counters = m.counters := by
  cases instruction with
  | foreign kind => rfl
  | value v =>
    cases v with
    | symbol name => exact counters_dispatchWithin m.room name m
    | _ => rfl

theorem counters_call (m : Machine) (name : String) (arguments : List Value) :
    (m.call name arguments).machine.counters = m.counters := by
  rw [call, counters_dispatch]
  induction arguments generalizing m with
  | nil => rfl
  | cons v rest ih => exact ih (m.push v)

theorem counters_evaluate (m : Machine) (source : String) :
    (m.evaluate source).machine.counters = m.counters := by
  rw [evaluate]
  cases Program.ofSource source with
  | ok reading => exact (counters_execute _ _).trans (counters_warn m reading.warning?)
  | error fault => rfl

theorem counters_runSource (m : Machine) (source : String) :
    (m.runSource source).machine.counters = m.counters := by
  rw [runSource]
  cases Program.ofSource source with
  | ok reading => exact (counters_execute _ _).trans (counters_warn m reading.warning?)
  | error fault => rfl

theorem counters_define (m : Machine) (name source : String) :
    (m.define name source).machine.counters = m.counters := by
  rw [define]
  cases Program.ofSource source with
  | ok reading => exact counters_warn m reading.warning?
  | error fault => rfl

theorem counters_build (form : CellForm) (m : Machine) :
    (form.build m).2.counters = m.counters := by
  cases form with
  | source text =>
    rw [CellForm.build]
    cases Program.ofSource text with
    | ok reading => exact counters_warn m reading.warning?
    | error fault => rfl
  | builtin name =>
    rw [CellForm.build]
    cases Builtin.cells.lookup name <;> rfl
  | _ => rfl

theorem counters_buildAll (forms : List (String × CellForm)) (m : Machine) :
    (buildAll forms m).2.counters = m.counters := by
  induction forms generalizing m with
  | nil => rfl
  | cons form rest ih =>
    obtain ⟨name, form⟩ := form
    have hbuild := counters_build form m
    rw [buildAll]
    generalize form.build m = built at hbuild
    obtain ⟨result, n⟩ := built
    cases result with
    | error fault => exact hbuild
    | ok cell => exact (ih n).trans hbuild

theorem counters_reply (o : Outcome) (tell : Machine → Reply) :
    (o.reply tell).2.counters = o.machine.counters := by
  rw [Outcome.reply]
  cases o.fault? <;> rfl

/-- No action changes how many dispatches are in progress, whether it fails or not. -/
theorem counters_perform (action : Action) (m : Machine) :
    (action.perform m).2.counters = m.counters := by
  cases action with
  | evaluate source => exact (counters_reply _ _).trans (counters_evaluate m source)
  | runSource source => exact (counters_reply _ _).trans (counters_runSource m source)
  | execute instructions => exact (counters_reply _ _).trans (counters_execute m instructions)
  | executeStep instruction => exact (counters_reply _ _).trans (counters_executeStep m instruction)
  | call name arguments => exact (counters_reply _ _).trans (counters_call m name arguments)
  | dispatch name => exact (counters_reply _ _).trans (counters_dispatch name m)
  | define name source => exact (counters_reply _ _).trans (counters_define m name source)
  | set name form =>
    have hbuild := counters_build form m
    rw [Action.perform]
    generalize form.build m = built at hbuild
    obtain ⟨result, n⟩ := built
    cases result <;> exact hbuild
  | setAll forms =>
    have hbuild := counters_buildAll forms m
    rw [Action.perform]
    generalize buildAll forms m = built at hbuild
    obtain ⟨result, n⟩ := built
    cases result <;> exact hbuild
  | pop =>
    obtain ⟨stack, scope, root⟩ := m
    cases stack <;> rfl
  | _ => rfl

/-! ## Sessions -/

/-- No dispatch is in progress on any root. -/
def Forest.AtRest (forest : Forest) : Prop :=
  ∀ tree ∈ forest.trees, tree.root.depth = 0

namespace Session

/-- Every step leaves every root at rest, whether it fails or not. -/
theorem invariant_atRest (limits : Limits) (cells : List (String × Cell)) :
    Invariant limits cells (fun tree => tree.root.depth = 0) (fun _ => True) (fun _ => True) where
  new := rfl
  addChild before place h := by
    rw [Tree.addChild]
    cases before.environments[place]? <;> exact h
  update before place m done h hview _ := by
    obtain ⟨environment, -, rfl⟩ := Option.map_eq_some_iff.mp hview
    exact (congrArg Prod.fst (counters_perform done _)).trans h
  refused _ := trivial
  failed _ _ _ _ _ _ _ _ _ := trivial

theorem atRest_run {session : Session} (h : session.forest.AtRest) (requests : List Request) :
    (session.run requests).2.forest.AtRest := by
  have hinv := invariant_atRest session.limits session.cells
  exact (hinv.run ⟨rfl, rfl, h⟩ requests fun _ _ _ _ => trivial).1.trees

theorem atRest_new (limits : Limits) (cells : List (String × Cell)) :
    (Session.new limits cells).forest.AtRest :=
  (invariant_atRest limits cells).satisfies_new.trees

end Session

/-- Every run of a program ends, with the outcome of executing it. At each of its moments the depth
is that of the start and one for each dispatch in progress; a dispatch never raises it above the
limit; and at the end, with a fault or without, it is that of the start again. Hence no root has a
dispatch in progress between the steps of a session. -/
theorem runs_end_with_depth_restored :
    (∀ (m : Machine) (program : List Instruction),
      Moment.Reaches ⟨.program program, [], m⟩ (.ended [] (m.execute program)) ∧
      (Moment.ended [] (m.execute program)).next? = none ∧
      (∀ s, Moment.Reaches ⟨.program program, [], m⟩ s →
        Moment.Reaches s (.ended [] (m.execute program)) ∧
        s.machine.root.depth = m.root.depth + s.dispatches ∧
        ∀ t, s.next? = some t → s.machine.root.depth < t.machine.root.depth →
          (∃ name, s.activity = .dispatch name) ∧
            (t.machine.root.depth : Int) ≤ m.root.limits.maxDepth) ∧
      (m.execute program).machine.root.depth = m.root.depth) ∧
    ∀ (limits : Limits) (cells : List (String × Cell)) (requests : List Request),
      ∀ tree ∈ ((Session.new limits cells).run requests).2.forest.trees, tree.root.depth = 0 := by
  refine ⟨fun m program => ?_, fun limits cells requests => ?_⟩
  · have hend := Moment.reaches_execute program [] m
    refine ⟨hend, rfl, fun s hs => ⟨?_, ?_, fun t ht hraised => ?_⟩, ?_⟩
    · exact Moment.reaches_of_ended hend rfl hs
    · exact (Moment.balanced_of_reaches hs).depth_eq
    · rw [← (Moment.balanced_of_reaches hs).limits_eq]
      exact Moment.depth_le_of_raised ht hraised
    · exact congrArg Prod.fst (counters_execute m program)
  · exact Session.atRest_run (Session.atRest_new limits cells) requests

end QuoteStack
