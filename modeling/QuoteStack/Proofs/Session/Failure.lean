import QuoteStack.Proofs.Run.Failure
import QuoteStack.Proofs.Session.Invariant

/-!
How the steps of a session fail. The external procedures of a host may fail with any fault of their
own that is plain: then in every step a fault has been wrapped once when it leaves the dispatch of an
external procedure, and never again, however deeply dispatches are nested. The main statement joins
this to what the runs of program texts show.
-/

namespace QuoteStack

/-! ## Plain procedures -/

mutual

/-- A procedure whose own faults are plain, and which binds nothing but such procedures. -/
def Procedure.IsPlain : Procedure → Prop
  | .done => True
  | .fail fault => fault.IsPlain
  | .push _ next => next.IsPlain
  | .pop next => ∀ v, (next v).IsPlain
  | .peek next => ∀ v?, (next v?).IsPlain
  | .clear next => next.IsPlain
  | .height next => ∀ n, (next n).IsPlain
  | .depth next => ∀ n, (next n).IsPlain
  | .context next => ∀ n, (next n).IsPlain
  | .popBindings next => ∀ bindings v, (next bindings v).IsPlain
  | .mint next => ∀ name, (next name).IsPlain
  | .register _ cell next => cell.IsPlain ∧ next.IsPlain
  | .execute _ next => next.IsPlain
  | .inChild _ body next => body.IsPlain ∧ ∀ values, (next values).IsPlain
  | .emit _ next => next.IsPlain

/-- A cell that holds no procedure but one whose own faults are plain. -/
def Cell.IsPlain : Cell → Prop
  | .external body => body.IsPlain
  | .program _ | .values _ | .foreign _ => True

end

/-- The operations of builtin procedures pass plainness on: the faults that these procedures have are
plain. -/
theorem isArithmetic_isPlain : ({ procedure := Procedure.IsPlain } : Criterion).IsArithmetic where
  symbol _ := trivial
  items _ _ _ := trivial
  done := trivial
  fail h := by cases h <;> trivial
  push _ h := h
  pop h v := h v trivial
  popBindings h bindings v := h bindings v (fun _ _ _ => trivial) trivial
  registerNew _ hclosure h name := ⟨hclosure, h name trivial⟩
  execute _ h := h
  inChild _ hbody h := ⟨hbody, fun values => h values fun _ _ => trivial⟩
  emit h := h
  number _ := trivial
  name _ := trivial
  block _ := trivial
  join _ _ := trivial
  operators _ _ := trivial
  context h context := h context trivial
  arithmetic _ _ := trivial

/-- The builtin procedures have plain faults only. -/
theorem Builtin.isPlain_of_mem_cells {name : String} {cell : Cell} (h : (name, cell) ∈ cells) :
    cell.IsPlain := by
  obtain ⟨body, rfl, -⟩ := exists_body_of_mem_cells h
  rcases isArithmetic_isPlain.of_mem_cells h with rfl | hplain
  · exact fun top? => trivial
  · exact hplain

/-! ## The law of hosts -/

/-- A fault that has been wrapped at most once, and that was not the limit on nested dispatches
before. -/
def Fault.IsWrappedOnce : Fault → Prop
  | .external cause => cause.IsPlain
  | _ => True

theorem Fault.IsPlain.isWrappedOnce {fault : Fault} (h : fault.IsPlain) : fault.IsWrappedOnce := by
  cases fault with
  | external cause => exact h.elim
  | _ => trivial

theorem Fault.isWrappedOnce_depthFault (limits : Limits) : limits.depthFault.IsWrappedOnce := by
  unfold Limits.depthFault
  split <;> trivial

namespace Law

/-- The law of environments that hold plain procedures, and any values. -/
def ofHosts (limits : Limits) : Law where
  limits
  value _ := True
  cell _ := Cell.IsPlain
  fault := Fault.IsPlain

variable {limits : Limits} {depth : Nat} {m : Machine}

theorem keeps_of_isPlain {body : Procedure} (h : body.IsPlain) : body.Keeps (ofHosts limits) := by
  induction body with
  | done => trivial
  | fail fault => exact h
  | push v next ih => exact ⟨trivial, ih h⟩
  | pop next ih => exact fun v _ => ih v (h v)
  | peek next ih => exact fun v? => ih v? (h v?)
  | clear next ih => exact ih h
  | height next ih => exact fun n => ih n (h n)
  | depth next ih => exact fun n => ih n (h n)
  | context next ih => exact ih _ (h _)
  | popBindings next ih => exact fun bindings v _ _ => ih bindings v (h bindings v)
  | mint next ih => exact fun name => ih name (h name)
  | register name cell next ih => exact ⟨h.1, ih h.2⟩
  | execute v next ih => exact ⟨trivial, ih h⟩
  | inChild bindings body next ihBody ihNext =>
    exact ⟨fun _ _ _ => trivial, ihBody h.1, fun values _ => ihNext values (h.2 values)⟩
  | emit event next ih => exact ih h

/-- What hosts and programs do with plain procedures keeps to their law. -/
theorem isSound_ofHosts (limits : Limits) : (ofHosts limits).IsSound where
  single _ _ := trivial
  items _ _ _ _ := trivial
  binding _ _ _ := trivial
  underflow := trivial
  undefined _ := trivial
  wrap _ hfault := Fault.wrap_of_isPlain hfault
  longLimit _ := trivial
  stored _ _ _ := trivial
  program _ _ _ _ _ := trivial
  foreign _ _ _ _ _ := trivial
  notACell _ _ _ := trivial
  external _ _ hbody := Or.inl (keeps_of_isPlain hbody)

theorem holds_set (h : (ofHosts limits).Holds depth m) (name : String) {cell : Cell}
    (hcell : cell.IsPlain) : (ofHosts limits).Holds depth (m.set name cell) :=
  h.set hcell

theorem Ends.isWrappedOnce {o : Outcome} (h : (ofHosts limits).Ends depth o) {fault : Fault}
    (hfault : o.fault? = some fault) : fault.IsWrappedOnce := by
  rcases h.fault fault hfault with hplain | rfl | ⟨cause, rfl, hcause⟩
  · exact hplain.isWrappedOnce
  · exact Fault.isWrappedOnce_depthFault limits
  · exact hcause

theorem ends_execute (h : (ofHosts limits).Holds depth m) (program : List Instruction) :
    (ofHosts limits).Ends depth (m.execute program) := by
  have hsound := isSound_ofHosts limits
  rw [Machine.execute_eq]
  exact ends_each hsound (fun name m h => ends_dispatch hsound name h) (fun _ _ => trivial)
    (fun _ _ => trivial) h

theorem ends_executeStep (h : (ofHosts limits).Holds depth m) (instruction : Instruction) :
    (ofHosts limits).Ends depth (m.executeStep instruction) := by
  cases instruction with
  | foreign kind => exact .of_fault h trivial
  | value v =>
    cases v with
    | number n => exact .of_holds (h.push trivial)
    | block items => exact .of_holds (h.push trivial)
    | symbol name => exact ends_dispatch (isSound_ofHosts limits) name h

theorem ends_call (h : (ofHosts limits).Holds depth m) (name : String) (arguments : List Value) :
    (ofHosts limits).Ends depth (m.call name arguments) := by
  rw [Machine.call]
  induction arguments generalizing m with
  | nil => exact ends_dispatch (isSound_ofHosts limits) name h
  | cons v rest ih => exact ih (h.push trivial)

/-- The only fault of reading a program text is plain. -/
theorem isPlain_of_ofSource {source : String} {fault : Fault}
    (h : Program.ofSource source = .error fault) : fault.IsPlain := by
  have hread := Program.isLiteral_ofSource source
  rw [h] at hread
  obtain ⟨rfl, -⟩ := hread
  trivial

theorem ends_evaluate (h : (ofHosts limits).Holds depth m) (source : String) :
    (ofHosts limits).Ends depth (m.evaluate source) := by
  rw [Machine.evaluate]
  cases hresult : Program.ofSource source with
  | ok reading => exact ends_execute ((h.warn _).emit _) _
  | error fault => exact .of_fault h (isPlain_of_ofSource hresult)

theorem ends_runSource (h : (ofHosts limits).Holds depth m) (source : String) :
    (ofHosts limits).Ends depth (m.runSource source) := by
  rw [Machine.runSource]
  cases hresult : Program.ofSource source with
  | ok reading => exact ends_execute (h.warn _) _
  | error fault => exact .of_fault h (isPlain_of_ofSource hresult)

theorem ends_define (h : (ofHosts limits).Holds depth m) (name source : String) :
    (ofHosts limits).Ends depth (m.define name source) := by
  rw [Machine.define]
  cases hresult : Program.ofSource source with
  | ok reading => exact .of_holds (holds_set (h.warn _) name trivial)
  | error fault => exact .of_fault h (isPlain_of_ofSource hresult)

/-! ## Actions -/

/-- How an action ends that keeps to the law. -/
structure Answers (limits : Limits) {α : Type} (good : α → Prop)
    (answer : Except Fault α × Machine) : Prop where
  holds : (ofHosts limits).Holds 0 answer.2
  result : ∀ result, answer.1 = .ok result → good result
  fault : ∀ cause, answer.1 = .error cause → cause.IsWrappedOnce

namespace Answers

variable {α : Type} {good : α → Prop}

theorem of_ok (h : (ofHosts limits).Holds 0 m) {result : α} (hresult : good result) :
    Answers limits good (.ok result, m) :=
  ⟨h, fun _ heq => Except.ok.inj heq ▸ hresult, fun _ heq => nomatch heq⟩

theorem of_error (h : (ofHosts limits).Holds 0 m) {cause : Fault} (hcause : cause.IsWrappedOnce) :
    Answers limits good (.error cause, m) :=
  ⟨h, fun _ heq => (nomatch heq), fun _ heq => Except.error.inj heq ▸ hcause⟩

/-- Looking something up changes nothing. -/
theorem of_map (h : (ofHosts limits).Holds 0 m) {found : Except Fault α}
    (hfault : ∀ cause, found = .error cause → cause.IsWrappedOnce) (tell : α → Reply) :
    Answers limits (fun _ => True) (found.map tell, m) := by
  cases found with
  | ok result => exact .of_ok h trivial
  | error cause => exact .of_error h (hfault cause rfl)

theorem of_ends {o : Outcome} (h : (ofHosts limits).Ends 0 o) (tell : Machine → Reply) :
    Answers limits (fun _ => True) (o.reply tell) := by
  obtain ⟨fault?, m⟩ := o
  cases fault? with
  | none => exact .of_ok h.holds trivial
  | some fault => exact .of_error h.holds (h.isWrappedOnce rfl)

end Answers

end Law

/-- A described cell that holds no procedure but one whose own faults are plain. -/
def CellForm.IsPlain : CellForm → Prop
  | .external body => body.IsPlain
  | .values _ | .program _ | .source _ | .builtin _ | .foreign _ => True

/-- An action that binds nothing but plain procedures. -/
def Action.IsPlain : Action → Prop
  | .set _ form => form.IsPlain
  | .setAll forms => ∀ name form, (name, form) ∈ forms → form.IsPlain
  | _ => True

namespace Law

variable {limits : Limits} {m : Machine}

theorem answers_build {form : CellForm} (hform : form.IsPlain) (h : (ofHosts limits).Holds 0 m) :
    Answers limits Cell.IsPlain (form.build m) := by
  cases form with
  | values items => exact .of_ok h trivial
  | program instructions => exact .of_ok h trivial
  | source text =>
    rw [CellForm.build]
    cases hresult : Program.ofSource text with
    | ok reading => exact .of_ok (h.warn _) trivial
    | error fault => exact .of_error h (isPlain_of_ofSource hresult).isWrappedOnce
  | builtin name =>
    rw [CellForm.build]
    cases hresult : Builtin.cells.lookup name with
    | none => exact .of_error h trivial
    | some cell => exact .of_ok h (Builtin.isPlain_of_mem_cells (Machine.mem_of_lookup hresult))
  | external body => exact .of_ok h hform
  | foreign content => exact .of_ok h trivial

theorem answers_buildAll {forms : List (String × CellForm)}
    (hforms : ∀ name form, (name, form) ∈ forms → form.IsPlain) (h : (ofHosts limits).Holds 0 m) :
    Answers limits (fun cells => ∀ name cell, (name, cell) ∈ cells → Cell.IsPlain cell)
      (buildAll forms m) := by
  induction forms generalizing m with
  | nil => exact .of_ok h fun _ _ hmem => absurd hmem List.not_mem_nil
  | cons binding rest ih =>
    obtain ⟨name, form⟩ := binding
    have hbuild := answers_build (hforms name form List.mem_cons_self) h
    rw [buildAll]
    generalize form.build m = built at hbuild
    obtain ⟨result, n⟩ := built
    cases result with
    | error fault => exact .of_error hbuild.holds (hbuild.fault fault rfl)
    | ok cell =>
      have hrest := ih (fun name form hmem => hforms name form (List.mem_cons_of_mem _ hmem))
        hbuild.holds
      dsimp only
      generalize buildAll rest n = others at hrest
      obtain ⟨result, n⟩ := others
      cases result with
      | error fault => exact .of_error hrest.holds (hrest.fault fault rfl)
      | ok cells =>
        refine .of_ok hrest.holds fun other found hmem => ?_
        rcases List.mem_cons.mp hmem with heq | hmem
        · obtain ⟨-, rfl⟩ := Prod.mk.inj heq
          exact hbuild.result found rfl
        · exact hrest.result cells rfl other found hmem

theorem isWrappedOnce_of_cell {name : String} {cause : Fault} (h : m.cell name = .error cause) :
    cause.IsWrappedOnce := by
  rw [Machine.cell] at h
  split at h
  · cases h
  · exact Except.error.inj h ▸ trivial

theorem isWrappedOnce_of_variableValue {name : String} {cause : Fault}
    (h : m.variableValue name = .error cause) : cause.IsWrappedOnce := by
  rw [Machine.variableValue] at h
  split at h
  · cases h
  · cases h
  · exact Except.error.inj h ▸ trivial
  · next fault hcell => exact Except.error.inj h ▸ isWrappedOnce_of_cell hcell

theorem isWrappedOnce_of_element {index : Int} {cause : Fault}
    (h : m.element index = .error cause) : cause.IsWrappedOnce := by
  unfold Machine.element at h
  split at h
  · exact Except.error.inj h ▸ trivial
  · dsimp only at h
    split at h
    · cases h
    · exact Except.error.inj h ▸ trivial

/-- Every action keeps to the law of hosts, whether it fails or not. -/
theorem answers_perform {action : Action} (haction : action.IsPlain)
    (h : (ofHosts limits).Holds 0 m) : Answers limits (fun _ => True) (action.perform m) := by
  have hsound := isSound_ofHosts limits
  cases action with
  | evaluate source => rw [Action.perform]; exact .of_ends (ends_evaluate h source) _
  | runSource source => rw [Action.perform]; exact .of_ends (ends_runSource h source) _
  | execute instructions => rw [Action.perform]; exact .of_ends (ends_execute h instructions) _
  | executeStep instruction => rw [Action.perform]; exact .of_ends (ends_executeStep h instruction) _
  | call name arguments => rw [Action.perform]; exact .of_ends (ends_call h name arguments) _
  | dispatch name => rw [Action.perform]; exact .of_ends (ends_dispatch hsound name h) _
  | define name source => rw [Action.perform]; exact .of_ends (ends_define h name source) _
  | setVariable name v =>
    have hvalue : (Cell.values [v]).IsPlain := trivial
    exact .of_ok (holds_set h name hvalue) trivial
  | variableValue name => exact .of_map h (fun _ => isWrappedOnce_of_variableValue) _
  -- a cell is built before it is bound, and this can fail
  | set name form =>
    have hbuild := answers_build haction h
    rw [Action.perform]
    generalize form.build m = built at hbuild
    obtain ⟨result, n⟩ := built
    cases result with
    | ok cell => exact .of_ok (holds_set hbuild.holds name (hbuild.result cell rfl)) trivial
    | error fault => exact .of_error hbuild.holds (hbuild.fault fault rfl)
  | setAll forms =>
    have hbuild := answers_buildAll haction h
    rw [Action.perform]
    generalize buildAll forms m = built at hbuild
    obtain ⟨result, n⟩ := built
    cases result with
    | ok cells => exact .of_ok (hbuild.holds.setAll (hbuild.result cells rfl)) trivial
    | error fault => exact .of_error hbuild.holds (hbuild.fault fault rfl)
  | installBuiltins =>
    exact .of_ok (h.setAll fun name cell => Builtin.isPlain_of_mem_cells) trivial
  | hasLocal name => exact .of_ok h trivial
  | cell name => exact .of_map h (fun _ => isWrappedOnce_of_cell) _
  | push v => exact .of_ok (h.push trivial) trivial
  | pop =>
    obtain ⟨stack, scope, root⟩ := m
    cases stack with
    | nil => exact .of_error h trivial
    | cons v rest => exact .of_ok (h.restack fun _ _ => trivial) trivial
  | peek => exact .of_ok h trivial
  | element index => exact .of_map h (fun _ => isWrappedOnce_of_element) _
  | clear => exact .of_ok (h.restack fun _ _ => trivial) trivial
  | values => exact .of_ok h trivial
  | renderTop => exact .of_ok h trivial
  | nextName => exact .of_ok h.countName trivial

end Law

/-! ## Sessions -/

/-- A tree at rest under given limits, with plain procedures in all environments. -/
structure Tree.IsPlain (limits : Limits) (tree : Tree) : Prop where
  counters : (tree.root.depth, tree.root.limits) = (0, limits)
  environments : ∀ environment ∈ tree.environments, ∀ name cell,
    environment.registers.find? name = some cell → cell.IsPlain

namespace Tree.IsPlain

variable {limits : Limits} {cells : List (String × Cell)} {tree : Tree} {m : Machine}

theorem new (hcells : ∀ name cell, (name, cell) ∈ cells → cell.IsPlain) :
    Tree.IsPlain limits (.ofMachine (.ofCells limits cells)) := by
  refine ⟨rfl, fun environment henvironment => ?_⟩
  obtain rfl := Array.mem_singleton.mp henvironment
  exact (Machine.binds_ofCells limits hcells).own

theorem addChild (h : tree.IsPlain limits) (place : Nat) : (tree.addChild place).IsPlain limits := by
  rw [Tree.addChild]
  cases tree.environments[place]? with
  | none => exact h
  | some parent =>
    refine ⟨h.counters, fun environment henvironment => ?_⟩
    rcases Array.mem_push.mp henvironment with henvironment | rfl
    · exact h.environments environment henvironment
    · intro name cell hcell
      cases hcell

/-- What a program sees in a plain tree keeps to the law of hosts. -/
theorem view (h : tree.IsPlain limits) {place : Nat} (hview : tree.view? place = some m) :
    (Law.ofHosts limits).Holds 0 m.fresh := by
  obtain ⟨environment, hplace, rfl⟩ := Option.map_eq_some_iff.mp hview
  have hown := h.environments environment (Array.mem_of_getElem? hplace)
  refine ⟨h.counters, fun _ _ => trivial, fun name cell hcell => ?_, hown⟩
  replace hcell : (Scope.ofChain _).find? name = some cell := hcell
  rw [Scope.find?_ofChain] at hcell
  -- what is found is bound in the environment itself or in one around it
  obtain ⟨registers, hmem, hfound⟩ := List.exists_of_findSome?_eq_some hcell
  rcases List.mem_cons.mp hmem with rfl | hmem
  · exact hown name cell hfound
  · obtain ⟨ancestor, -, hancestor⟩ := List.mem_filterMap.mp hmem
    obtain ⟨around, haround, rfl⟩ := Option.map_eq_some_iff.mp hancestor
    exact h.environments around (Array.mem_of_getElem? haround) name cell hfound

theorem update (h : tree.IsPlain limits) (place : Nat) (hm : (Law.ofHosts limits).Holds 0 m) :
    (tree.update place m).IsPlain limits := by
  have henvironments := Session.forall_mem_modify h.environments place
    (fun environment => { environment with stack := m.stack, registers := m.scope.own })
    fun _ _ => hm.binds.own
  exact ⟨hm.counters, henvironments⟩

end Tree.IsPlain

/-- Plain procedures stay plain, and faults are wrapped once, through all steps of a session. -/
theorem Session.invariant_isPlain (limits : Limits) {cells : List (String × Cell)}
    (hcells : ∀ name cell, (name, cell) ∈ cells → cell.IsPlain) :
    Session.Invariant limits cells (Tree.IsPlain limits) Action.IsPlain Fault.IsWrappedOnce where
  new := .new hcells
  addChild _ place h := h.addChild place
  update _ place _ _ h hview hdone := h.update place (Law.answers_perform hdone (h.view hview)).holds
  refused _ := trivial
  failed _ _ _ _ cause h hview hdone := (Law.answers_perform hdone (h.view hview)).fault cause

/-- The text of a division. -/
theorem Program.ofSource_divide :
    ofSource "divide \x7b3 1\x7d" =
      .ok ⟨[.block [.number (.ofNat 1), .number (.ofNat 3)], .symbol "divide"], [], none⟩ :=
  ofSource_of_text (by decide) (by decide)

/-- In a new root environment, a program text fails with a symbol of the program that is not bound,
with the limit on nested dispatches, or with a fault that has been wrapped once: one that builtin
procedures may have where the precision is given, and where values weigh what the text allows. The
one exception is a text that no memory holds. In every session whose external procedures have plain
faults of their own, no fault is wrapped twice, and the limit is never wrapped. -/
theorem runs_fail_with_faults_wrapped_once :
    (∀ (limits : Limits) (source : String) (fault : Fault),
      (runProgram limits source).fault? = some fault →
        (fault = .numberOutOfRange ∧ Decimal.storableLength < source.length) ∨
          (∃ reading name, Program.ofSource source = .ok reading ∧
            .symbol name ∈ reading.program ∧ fault = .undefinedSymbol name) ∨
          fault = limits.depthFault ∨
          ∃ cause, fault = .external cause ∧ cause.CanArise limits (Program.heaviest limits source)) ∧
    ∀ (limits : Limits) (cells : List (String × Cell)) (requests : List Request),
      (∀ name cell, (name, cell) ∈ cells → cell.IsPlain) →
      (∀ request ∈ requests, ∀ action, request.action? = some action → action.IsPlain) →
      ∀ answer ∈ ((Session.new limits cells).run requests).1, ∀ cause,
        answer.result = .error (.external cause) → cause.IsPlain := by
  refine ⟨fun limits source fault hfault => fault_runProgram hfault, ?_⟩
  intro limits cells requests hcells hrequests answer hanswer cause hcause
  have hinv := Session.invariant_isPlain limits hcells
  exact (hinv.run hinv.satisfies_new requests hrequests).2 answer hanswer _ hcause

/-- A division to no digits at all fails with a fault that has been wrapped once, and so does a host
procedure that is called by another one. -/
theorem runs_fail_with_faults_wrapped_once_division_and_host :
    let limits : Limits := { precision := 0 }
    let source := "divide \x7b3 1\x7d"
    let cells : List (String × Cell) :=
      [("refuse", .external Host.refuse), ("call", .external (Host.caller "refuse"))]
    let requests : List Request := [.atRoot (.dispatch "call")]
    (runProgram limits source).fault? = some (.external (.arithmetic .precision)) ∧
      (Fault.arithmetic .precision).CanArise limits (Program.heaviest limits source) ∧
      (∀ name cell, (name, cell) ∈ cells → cell.IsPlain) ∧
      (∀ request ∈ requests, ∀ action, request.action? = some action → action.IsPlain) ∧
      ∃ answer ∈ ((Session.new limits cells).run requests).1,
        answer.result = .error (.external (.refused "bad input")) ∧
          (Fault.refused "bad input").IsPlain := by
  intro limits source cells requests
  have hrun : (runProgram limits source).fault? = some (.external (.arithmetic .precision)) := by
    unfold runProgram Machine.evaluate
    rw [Program.ofSource_divide]
    rfl
  have hcells : ∀ name cell, (name, cell) ∈ cells → cell.IsPlain := by
    intro name cell hmem
    simp only [cells, List.mem_cons, List.not_mem_nil, or_false, Prod.mk.injEq] at hmem
    rcases hmem with ⟨-, rfl⟩ | ⟨-, rfl⟩ <;> trivial
  have hrequests : ∀ request ∈ requests, ∀ action, request.action? = some action →
      action.IsPlain := by
    intro request hrequest action haction
    obtain rfl := List.mem_singleton.mp hrequest
    obtain rfl := Option.some.inj haction
    trivial
  refine ⟨hrun, ?_, hcells, hrequests, _, List.mem_cons_self, rfl, ?_⟩
  · rcases runs_fail_with_faults_wrapped_once.1 limits source _ hrun with
      ⟨heq, -⟩ | ⟨_, _, -, -, heq⟩ | heq | ⟨cause, heq, hcause⟩
    · cases heq
    · cases heq
    · rw [Limits.depthFault_of_isShort (by decide)] at heq
      cases heq
    · exact Fault.external.inj heq ▸ hcause
  · exact runs_fail_with_faults_wrapped_once.2 limits cells requests hcells hrequests _
      List.mem_cons_self _ rfl

/-- A precision that is no machine integer, and one for whose digits there is no memory, are causes
that are neither among the faults with codes, nor among those of dividing, nor a precision below one
digit. -/
theorem runProgram_divide_of_enormous_precision :
    let source := "divide \x7b3 1\x7d"
    (∃ cause, (runProgram { precision := 1000000000000000000000000000000 } source).fault? =
        some (.external cause) ∧ cause.code? = none ∧ cause ≠ .arithmetic .byZero ∧
      cause ≠ .arithmetic .undefined ∧ cause ≠ .arithmetic .overflow ∧
      cause ≠ .arithmetic .precision) ∧
    ∃ cause, (runProgram { precision := 500000000000000000 } source).fault? =
        some (.external cause) ∧ cause.code? = none ∧ cause ≠ .arithmetic .byZero ∧
      cause ≠ .arithmetic .undefined ∧ cause ≠ .arithmetic .overflow ∧
      cause ≠ .arithmetic .precision := by
  intro source
  unfold runProgram Machine.evaluate
  rw [Program.ofSource_divide]
  refine ⟨⟨.arithmetic .precisionSize, rfl, rfl, ?_⟩, .arithmetic .memory, rfl, rfl, ?_⟩ <;>
    refine ⟨?_, ?_, ?_, ?_⟩ <;> intro heq <;> cases heq

end QuoteStack
