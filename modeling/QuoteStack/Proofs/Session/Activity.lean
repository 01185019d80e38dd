import QuoteStack.Proofs.Forest.Scene
import QuoteStack.Proofs.Run.Binding
import QuoteStack.Proofs.Session.Invariant

/-!
What a host does, as runs. Whatever an action changes in an environment, some activity that is begun
there changes alike: a program, a dispatch, or a procedure that binds names or works on the stack.
What is read on the way shows in the journal only. So a host does nothing but begin runs, write to
the journal and add children. The main statements are `Action.isActivity` and
`Scene.reaches_perform`.
-/

namespace QuoteStack

/-- Binds names to cells in order. -/
def Procedure.registerAll : List (String × Cell) → Procedure
  | [] => .done
  | (name, cell) :: rest => .register name cell (registerAll rest)

namespace Machine

/-- The state with another journal. -/
def withJournal (m : Machine) (journal : List Event) : Machine :=
  { m with root := { m.root with journal } }

/-- From the first state, with some journal, some activity comes to an end in the second one. -/
def Leads (m n : Machine) : Prop :=
  ∃ journal activity fault?,
    Moment.Reaches ⟨activity, [], m.withJournal journal⟩ ⟨.finished fault?, [], n⟩

theorem leads_withJournal (m : Machine) (journal : List Event) :
    m.Leads (m.withJournal journal) :=
  ⟨journal, .finished none, none, .refl _⟩

theorem leads_procedure (m : Machine) (journal : List Event) (body : Procedure) :
    m.Leads (body.run dispatcher (m.withJournal journal)).machine :=
  ⟨journal, .procedure body, _, Moment.reaches_run body [] _⟩

theorem leads_execute (m : Machine) (journal : List Event) (program : List Instruction) :
    m.Leads ((m.withJournal journal).execute program).machine :=
  ⟨journal, .program program, _, Moment.reaches_execute program [] _⟩

theorem leads_dispatch (m : Machine) (journal : List Event) (name : String) :
    m.Leads ((m.withJournal journal).dispatch name).machine :=
  ⟨journal, .dispatch name, _, Moment.reaches_dispatch name [] _⟩

theorem leads_setAll (m : Machine) (journal : List Event) (cells : List (String × Cell)) :
    m.Leads ((m.withJournal journal).setAll cells) := by
  have hrun : ∀ n : Machine, (Procedure.registerAll cells).run dispatcher n =
      ⟨none, n.setAll cells⟩ := by
    induction cells with
    | nil => exact fun n => rfl
    | cons entry rest ih => exact fun n => ih (n.set entry.1 entry.2)
  have hleads := m.leads_procedure journal (.registerAll cells)
  rwa [hrun] at hleads

theorem leads_set (m : Machine) (journal : List Event) (name : String) (cell : Cell) :
    m.Leads ((m.withJournal journal).set name cell) :=
  m.leads_setAll journal [(name, cell)]

theorem foldl_push (m : Machine) (values : List Value) :
    values.foldl push m = { m with stack := values.reverse ++ m.stack } := by
  induction values generalizing m with
  | nil => rfl
  | cons v rest ih =>
    rw [List.foldl_cons, ih, List.reverse_cons, List.append_assoc]
    rfl

/-- Calling a name is pushing the arguments and then executing the symbol. -/
theorem leads_call (m : Machine) (journal : List Event) (name : String) (arguments : List Value) :
    m.Leads ((m.withJournal journal).call name arguments).machine := by
  have hleads := m.leads_procedure journal (.pushAll (.execute (.symbol name) .done) arguments)
  rw [run_pushAll, ← foldl_push, Procedure.run] at hleads
  simp only [Procedure.run, Outcome.andThen_done] at hleads
  exact hleads

theorem leads_executeStep (m : Machine) (journal : List Event) (instruction : Instruction) :
    m.Leads ((m.withJournal journal).executeStep instruction).machine := by
  have hleads := m.leads_execute journal [instruction]
  rw [execute, executeEach] at hleads
  simp only [executeEach, Outcome.andThen_done] at hleads
  exact hleads

/-- Warnings go into the journal. -/
theorem exists_warn_eq (m : Machine) (journal : List Event) (warning? : Option Program.Warning) :
    ∃ journal', (m.withJournal journal).warn warning? = m.withJournal journal' := by
  cases warning? with
  | none => exact ⟨journal, rfl⟩
  | some warning => exact ⟨.warned warning :: journal, rfl⟩

theorem leads_runSource (m : Machine) (journal : List Event) (source : String) :
    m.Leads ((m.withJournal journal).runSource source).machine := by
  rw [runSource]
  cases Program.ofSource source with
  | error fault => exact m.leads_withJournal journal
  | ok reading =>
    obtain ⟨warned, hwarn⟩ := m.exists_warn_eq journal reading.warning?
    dsimp only
    rw [hwarn]
    exact m.leads_execute warned _

theorem leads_evaluate (m : Machine) (journal : List Event) (source : String) :
    m.Leads ((m.withJournal journal).evaluate source).machine := by
  rw [evaluate]
  cases Program.ofSource source with
  | error fault => exact m.leads_withJournal journal
  | ok reading =>
    obtain ⟨warned, hwarn⟩ := m.exists_warn_eq journal reading.warning?
    dsimp only
    rw [hwarn]
    exact m.leads_execute (.started reading.program.length :: warned) _

theorem leads_define (m : Machine) (journal : List Event) (name source : String) :
    m.Leads ((m.withJournal journal).define name source).machine := by
  rw [define]
  cases Program.ofSource source with
  | error fault => exact m.leads_withJournal journal
  | ok reading =>
    obtain ⟨warned, hwarn⟩ := m.exists_warn_eq journal reading.warning?
    dsimp only
    rw [hwarn]
    exact m.leads_set warned name _

end Machine

/-- Making a cell leaves traces in the journal only. -/
theorem CellForm.exists_build_eq (form : CellForm) (m : Machine) (journal : List Event) :
    ∃ journal', (form.build (m.withJournal journal)).2 = m.withJournal journal' := by
  cases form with
  | source text =>
    rw [CellForm.build]
    cases Program.ofSource text with
    | error fault => exact ⟨journal, rfl⟩
    | ok reading => exact m.exists_warn_eq journal reading.warning?
  | builtin name =>
    rw [CellForm.build]
    cases Builtin.cells.lookup name <;> exact ⟨journal, rfl⟩
  | _ => exact ⟨journal, rfl⟩

theorem exists_buildAll_eq (forms : List (String × CellForm)) (m : Machine) (journal : List Event) :
    ∃ journal', (buildAll forms (m.withJournal journal)).2 = m.withJournal journal' := by
  induction forms generalizing journal with
  | nil => exact ⟨journal, rfl⟩
  | cons entry rest ih =>
    obtain ⟨name, form⟩ := entry
    obtain ⟨journal', hbuild⟩ := form.exists_build_eq m journal
    rw [buildAll]
    generalize form.build (m.withJournal journal) = built at hbuild
    obtain ⟨result, n⟩ := built
    obtain rfl : n = m.withJournal journal' := hbuild
    cases result with
    | error fault => exact ⟨journal', rfl⟩
    | ok cell => exact ih journal'

theorem snd_reply (o : Outcome) (tell : Machine → Reply) : (o.reply tell).2 = o.machine := by
  rw [Outcome.reply]
  cases o.fault? <;> rfl

namespace Action

open Machine

/-- Every action of a host leaves what some activity leaves, begun with some journal. -/
theorem isActivity (action : Action) (m : Machine) : m.Leads (action.perform m.fresh).2 := by
  have hsame : m.Leads m.fresh := m.leads_withJournal []
  cases action with
  | evaluate source =>
    rw [perform, snd_reply]
    exact m.leads_evaluate [] source
  | runSource source =>
    rw [perform, snd_reply]
    exact m.leads_runSource [] source
  | execute instructions =>
    rw [perform, snd_reply]
    exact m.leads_execute [] instructions
  | executeStep instruction =>
    rw [perform, snd_reply]
    exact m.leads_executeStep [] instruction
  | call name arguments =>
    rw [perform, snd_reply]
    exact m.leads_call [] name arguments
  | dispatch name =>
    rw [perform, snd_reply]
    exact m.leads_dispatch [] name
  | define name source =>
    rw [perform, snd_reply]
    exact m.leads_define [] name source
  | setVariable name v => exact m.leads_set [] name (.values [v])
  -- a cell that cannot be built still leaves its warnings in the journal
  | set name form =>
    obtain ⟨journal, hbuild⟩ := form.exists_build_eq m []
    replace hbuild : (form.build m.fresh).2 = m.withJournal journal := hbuild
    rw [perform]
    generalize form.build m.fresh = built at hbuild
    obtain ⟨result, n⟩ := built
    obtain rfl : n = m.withJournal journal := hbuild
    cases result with
    | error fault => exact m.leads_withJournal journal
    | ok cell => exact m.leads_set journal name cell
  | setAll forms =>
    obtain ⟨journal, hbuild⟩ := exists_buildAll_eq forms m []
    replace hbuild : (buildAll forms m.fresh).2 = m.withJournal journal := hbuild
    rw [perform]
    generalize buildAll forms m.fresh = built at hbuild
    obtain ⟨result, n⟩ := built
    obtain rfl : n = m.withJournal journal := hbuild
    cases result with
    | error fault => exact m.leads_withJournal journal
    | ok cells => exact m.leads_setAll journal cells
  | installBuiltins => exact m.leads_setAll [] Builtin.cells
  | push v => exact m.leads_procedure [] (.push v .done)
  | pop =>
    have hpop := m.leads_procedure [] (.pop fun _ => .done)
    obtain ⟨stack, scope, root⟩ := m
    cases stack with
    | nil => exact hsame
    | cons v rest => exact hpop
  | clear => exact m.leads_procedure [] (.clear .done)
  | nextName => exact m.leads_procedure [] (.mint fun _ => .done)
  | _ => exact hsame

end Action

namespace Scene

/-- Whenever no run is in progress, each action of a host is a run: the scenes lead to a tree in
which all environments that were there are as after the action, and so is the root. -/
theorem reaches_perform {tree : Tree} (hordered : tree.IsOrdered) {place : Nat} {m : Machine}
    (hview : tree.view? place = some m) (made? : Option String) (action : Action) :
    ∃ after, Reaches ⟨tree, none, made?⟩ ⟨after, none, none⟩ ∧
      after.root = (action.perform m.fresh).2.root ∧
      ∀ other < tree.environments.size, after.environments[other]? =
        (tree.update place (action.perform m.fresh).2).environments[other]? := by
  obtain ⟨journal, activity, fault?, hends⟩ := action.isActivity m
  let noted := tree.onRoot fun root => { root with journal }
  have hnote : Step ⟨tree, none, made?⟩ ⟨noted, none, none⟩ := .note tree made? journal
  have hnoted : noted.view? place = some (m.withJournal journal) := by
    obtain ⟨environment, hplace, rfl⟩ := Option.map_eq_some_iff.mp hview
    exact Option.map_eq_some_iff.mpr ⟨environment, hplace, rfl⟩
  obtain ⟨after, hreaches, hroot, hkept⟩ :=
    reaches_of_ends (hordered.onRoot _) hnoted none hends
  exact ⟨after, .head hnote hreaches, hroot, hkept⟩

end Scene

end QuoteStack
