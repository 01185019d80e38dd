import QuoteStack.Proofs.Run.Builtin
import QuoteStack.Proofs.Run.Cells

/-!
Laws for runs. A law says which values there may be, what names may be bound to, and which faults
may be raised. Where procedures keep to a law, whole runs do: the values on the stack and the cells
stay lawful, and a run ends without a fault, with one that the law allows, with the limit on nested
dispatches, or with a fault that the law allows and that has been wrapped once. The main statement
is `Law.ends_dispatch`.
-/

namespace QuoteStack

/-- What there may be in runs under given limits. -/
structure Law where
  limits : Limits
  value : Value → Prop
  cell : String → Cell → Prop
  fault : Fault → Prop

namespace Law

/-- The faults that leave a dispatch of an external procedure. -/
def Passes (law : Law) (fault : Fault) : Prop :=
  fault = law.limits.depthFault ∨ ∃ cause, fault = .external cause ∧ law.fault cause

/-- A state that keeps to the law, with a number of dispatches in progress. -/
structure Holds (law : Law) (depth : Nat) (m : Machine) : Prop where
  counters : m.counters = (depth, law.limits)
  stack : ∀ v ∈ m.stack, law.value v
  binds : m.scope.Binds law.cell

/-- An outcome that keeps to the law. -/
structure Ends (law : Law) (depth : Nat) (o : Outcome) : Prop where
  holds : law.Holds depth o.machine
  fault : ∀ fault, o.fault? = some fault → law.fault fault ∨ law.Passes fault

/-- What an external procedure leaves, if it keeps to the law. -/
structure Leaves (law : Law) (depth : Nat) (o : Outcome) : Prop where
  holds : law.Holds depth o.machine
  passes : ∀ fault, o.fault? = some fault → law.Passes fault

end Law

/-- A procedure that keeps to the law as long as what it takes is lawful. -/
def Procedure.Keeps (law : Law) : Procedure → Prop
  | .done => True
  | .fail fault => law.fault fault
  | .push v next => law.value v ∧ next.Keeps law
  | .pop next => ∀ v, law.value v → (next v).Keeps law
  | .peek next => ∀ v?, (next v?).Keeps law
  | .clear next => next.Keeps law
  | .height next => ∀ n, (next n).Keeps law
  | .depth next => ∀ n, (next n).Keeps law
  | .context next => (next law.limits.toContext).Keeps law
  | .popBindings next => ∀ bindings v, (∀ name w, (name, w) ∈ bindings → law.value w) →
      law.value v → (next bindings v).Keeps law
  | .mint next => ∀ name, (next name).Keeps law
  | .register name cell next => law.cell name cell ∧ next.Keeps law
  | .execute v next => law.value v ∧ next.Keeps law
  | .inChild bindings body next => (∀ name w, (name, w) ∈ bindings → law.value w) ∧
      body.Keeps law ∧ ∀ values, (∀ v ∈ values, law.value v) → (next values).Keeps law
  | .emit _ next => next.Keeps law

namespace Law

/-- The criterion of keeping to a law. -/
def criterion (law : Law) : Criterion where
  procedure := Procedure.Keeps law
  value := law.value
  context context := context = law.limits.toContext

/-- Keeping to a law is passed on if the law allows symbols, the items of blocks, closures, and the
faults that are raised about values. -/
theorem isClosed_criterion {law : Law} (hsymbol : ∀ name, law.value (.symbol name))
    (hitems : ∀ {items}, law.value (.block items) → ∀ v ∈ items, law.value v)
    (hclosure : ∀ name {items}, (∀ v ∈ items, law.value v) →
      law.cell name (.external (.executeAll items)))
    (hfault : ∀ {fault}, law.criterion.Raises fault → law.fault fault) :
    law.criterion.IsClosed where
  symbol _ := hsymbol _
  items := hitems
  done := trivial
  fail := hfault
  push hv h := ⟨hv, h⟩
  pop h := h
  popBindings h := h
  registerNew hvalues _ h name := ⟨hclosure name hvalues, h name trivial⟩
  execute hv h := ⟨hv, h⟩
  inChild hbindings hbody h := ⟨hbindings, hbody, h⟩
  emit h := h

/-- What makes a law one that runs keep to. -/
structure IsSound (law : Law) : Prop where
  single : ∀ v, law.value v → law.value (.block [v])
  items : ∀ items, law.value (.block items) → ∀ v ∈ items, law.value v
  binding : ∀ name v, law.value v → law.cell name (.values [v])
  underflow : law.fault .stackUnderflow
  undefined : ∀ name, law.fault (.undefinedSymbol name)
  /-- No fault of the law is one that is wrapped already, or passes unwrapped. -/
  wrap : ∀ fault, law.fault fault → fault.wrap = .external fault
  /-- What takes the place of a limit that cannot be told is a fault of the law. -/
  longLimit : ¬ Text.IsShort law.limits.maxDepth → law.fault .longLimit
  stored : ∀ name items, law.cell name (.values items) → law.value (.block items)
  program : ∀ name instructions, law.cell name (.program instructions) →
    ∀ v, Instruction.value v ∈ instructions → law.value v
  foreign : ∀ name instructions, law.cell name (.program instructions) →
    ∀ kind, Instruction.foreign kind ∈ instructions → law.fault (.notExecutable kind)
  notACell : ∀ name content, law.cell name (.foreign content) → law.fault (.notACell name content)
  /-- A procedure keeps to the law by itself, or where its name means it. -/
  external : ∀ name body, law.cell name (.external body) → body.Keeps law ∨
    ∀ depth m, law.Holds (depth + 1) m → m.find? name = some (.external body) →
      law.Leaves (depth + 1) (body.run Machine.dispatcher m).wrap

variable {law : Law} {depth : Nat}

/-! ## States -/

namespace Holds

variable {m : Machine}

theorem limits_eq (h : law.Holds depth m) : m.root.limits = law.limits :=
  congrArg Prod.snd h.counters

theorem restack (h : law.Holds depth m) {stack : List Value} (hstack : ∀ v ∈ stack, law.value v) :
    law.Holds depth { m with stack } :=
  ⟨h.counters, hstack, h.binds⟩

theorem push (h : law.Holds depth m) {v : Value} (hv : law.value v) :
    law.Holds depth (m.push v) :=
  h.restack (List.forall_mem_cons.mpr ⟨hv, h.stack⟩)

theorem set (h : law.Holds depth m) {name : String} {cell : Cell} (hcell : law.cell name cell) :
    law.Holds depth (m.set name cell) :=
  ⟨h.counters, h.stack, h.binds.set hcell⟩

theorem setAll (h : law.Holds depth m) {cells : List (String × Cell)}
    (hcells : ∀ name cell, (name, cell) ∈ cells → law.cell name cell) :
    law.Holds depth (m.setAll cells) :=
  ⟨h.counters, h.stack, h.binds.setAll hcells⟩

theorem emit (h : law.Holds depth m) (event : Event) : law.Holds depth (m.emit event) :=
  ⟨h.counters, h.stack, h.binds⟩

theorem warn (h : law.Holds depth m) (warning? : Option Program.Warning) :
    law.Holds depth (m.warn warning?) := by
  cases warning? with
  | none => exact h
  | some warning => exact h.emit _

theorem countName (h : law.Holds depth m) : law.Holds depth m.countName :=
  ⟨h.counters, h.stack, h.binds⟩

theorem child (hsound : law.IsSound) (h : law.Holds depth m) {bindings : List (String × Value)}
    (hbindings : ∀ name w, (name, w) ∈ bindings → law.value w) :
    law.Holds depth (m.child bindings) where
  counters := h.counters
  stack _ hv := absurd hv List.not_mem_nil
  binds := Machine.binds_child h.binds fun name v hv => hsound.binding name v (hbindings name v hv)

theorem back {child : Machine} (h : law.Holds depth m) (hchild : law.Holds depth child) :
    law.Holds depth { m with root := child.root } :=
  ⟨hchild.counters, h.stack, h.binds⟩

theorem enter (h : law.Holds depth m) : law.Holds (depth + 1) m.enter where
  counters := by
    have hdepth : m.root.depth = depth := congrArg Prod.fst h.counters
    show (m.root.depth + 1, m.root.limits) = _
    rw [hdepth, h.limits_eq]
  stack := h.stack
  binds := h.binds

theorem leave (h : law.Holds (depth + 1) m) : law.Holds depth m.leave where
  counters := by
    have hdepth : m.root.depth = depth + 1 := congrArg Prod.fst h.counters
    show (m.root.depth - 1, m.root.limits) = _
    rw [hdepth, h.limits_eq]
    rfl
  stack := h.stack
  binds := h.binds

end Holds

/-! ## Outcomes -/

theorem Ends.of_holds {m : Machine} (h : law.Holds depth m) : law.Ends depth ⟨none, m⟩ :=
  ⟨h, fun _ hfault => nomatch hfault⟩

theorem Ends.of_fault {m : Machine} (h : law.Holds depth m) {fault : Fault}
    (hfault : law.fault fault) : law.Ends depth ⟨some fault, m⟩ :=
  ⟨h, fun _ heq => Or.inl (Option.some.inj heq ▸ hfault)⟩

theorem Ends.andThen {o : Outcome} (h : law.Ends depth o) {next : Machine → Outcome}
    (hnext : ∀ m, law.Holds depth m → law.Ends depth (next m)) : law.Ends depth (o.andThen next) := by
  obtain ⟨fault?, m⟩ := o
  cases fault? with
  | none => exact hnext m h.holds
  | some fault => exact h

theorem Leaves.ends {o : Outcome} (h : law.Leaves depth o) : law.Ends depth o :=
  ⟨h.holds, fun fault hfault => Or.inr (h.passes fault hfault)⟩

/-- The limit on nested dispatches passes, and what takes its place is wrapped. -/
theorem passes_wrap_depthFault
    (hlong : ¬ Text.IsShort law.limits.maxDepth → law.fault .longLimit) :
    law.Passes law.limits.depthFault.wrap := by
  by_cases hshort : Text.IsShort law.limits.maxDepth
  · left
    rw [Limits.depthFault_of_isShort hshort]
    rfl
  · right
    rw [Limits.depthFault_of_not_isShort hshort]
    exact ⟨.longLimit, rfl, hlong hshort⟩

/-- Leaving an external procedure, a fault is wrapped unless it has been, or is the limit. -/
theorem Ends.wrap (hwrap : ∀ fault, law.fault fault → fault.wrap = .external fault)
    (hlong : ¬ Text.IsShort law.limits.maxDepth → law.fault .longLimit) {o : Outcome}
    (h : law.Ends depth o) : law.Leaves depth o.wrap := by
  refine ⟨h.holds, fun fault hfault => ?_⟩
  obtain ⟨inner, hinner, rfl⟩ := Option.map_eq_some_iff.mp hfault
  rcases h.fault inner hinner with hinner | rfl | ⟨cause, rfl, hcause⟩
  · rw [hwrap inner hinner]
    exact Or.inr ⟨inner, rfl, hinner⟩
  · exact passes_wrap_depthFault hlong
  · exact Or.inr ⟨cause, rfl, hcause⟩

/-! ## Runs -/

/-- Dispatches at a depth keep to the law. -/
def DispatchesEnd (law : Law) (depth : Nat) : Prop :=
  ∀ name m, law.Holds depth m → law.Ends depth (Machine.dispatcher name m)

section
variable {m : Machine}

open Machine

theorem ends_value (hsound : law.IsSound) (hD : law.DispatchesEnd depth) {v : Value}
    (hv : law.value v) (h : law.Holds depth m) : law.Ends depth (v.execute dispatcher m) := by
  cases v with
  | number n => exact .of_holds (h.push (hsound.single _ hv))
  | block items => exact .of_holds (h.push hv)
  | symbol name => exact hD name m h

theorem ends_each (hsound : law.IsSound) (hD : law.DispatchesEnd depth)
    {program : List Instruction} (hvalues : ∀ v, Instruction.value v ∈ program → law.value v)
    (hforeign : ∀ kind, Instruction.foreign kind ∈ program → law.fault (.notExecutable kind))
    (h : law.Holds depth m) : law.Ends depth (executeEach dispatcher program m) := by
  induction program generalizing m with
  | nil => exact .of_holds h
  | cons instruction rest ih =>
    have hrest := fun m h => ih (m := m) (fun v hv => hvalues v (List.mem_cons_of_mem _ hv))
      (fun kind hkind => hforeign kind (List.mem_cons_of_mem _ hkind)) h
    refine Ends.andThen ?_ hrest
    cases instruction with
    | value v => exact ends_value hsound hD (hvalues v List.mem_cons_self) h
    | foreign kind => exact .of_fault h (hforeign kind List.mem_cons_self)

theorem ends_run (hsound : law.IsSound) (hD : law.DispatchesEnd depth) {body : Procedure}
    (hbody : body.Keeps law) (h : law.Holds depth m) :
    law.Ends depth (body.run dispatcher m) := by
  induction body generalizing m with
  | done => exact .of_holds h
  | fail fault => exact .of_fault h hbody
  | push v next ih => exact ih hbody.2 (h.push hbody.1)
  | pop next ih =>
    obtain ⟨stack, scope, root⟩ := m
    cases stack with
    | nil => exact .of_fault h hsound.underflow
    | cons v rest =>
      obtain ⟨hv, hrest⟩ := List.forall_mem_cons.mp h.stack
      exact ih v (hbody v hv) (h.restack hrest)
  | peek next ih => exact ih _ (hbody _) h
  | clear next ih => exact ih hbody (h.restack fun v hv => absurd hv List.not_mem_nil)
  | height next ih => exact ih _ (hbody _) h
  | depth next ih => exact ih _ (hbody _) h
  | context next ih =>
    simp only [Procedure.run, h.limits_eq]
    exact ih _ hbody h
  | popBindings next ih =>
    simp only [Procedure.run]
    generalize hspan : Machine.spanBindings [] m.stack = split
    obtain ⟨bindings, rest⟩ := split
    obtain ⟨hpairs, hof⟩ := Machine.mem_of_spanBindings hspan
    have hbindings : ∀ name w, (name, w) ∈ bindings → law.value w := by
      intro name w hw
      rcases hpairs name w hw with hnone | hpair
      · exact absurd hnone List.not_mem_nil
      · -- the value is an item of a pair that was on the stack
        exact hsound.items _ (h.stack _ hpair) w List.mem_cons_self
    have hrest : ∀ v ∈ rest, law.value v := fun v hv => h.stack v (hof v hv)
    cases rest with
    | nil =>
      exact .of_fault (h.restack fun v hv => absurd hv List.not_mem_nil) hsound.underflow
    | cons v rest =>
      obtain ⟨hv, hrest⟩ := List.forall_mem_cons.mp hrest
      exact ih bindings v (hbody bindings v hbindings hv) (h.restack hrest)
  | mint next ih => exact ih _ (hbody _) h.countName
  | register name cell next ih => exact ih hbody.2 (h.set hbody.1)
  | execute v next ih =>
    exact (ends_value hsound hD hbody.1 h).andThen fun m h => ih hbody.2 h
  | inChild bindings body next ihBody ihNext =>
    obtain ⟨hbindings, hbody, hnext⟩ := hbody
    have hchild := ihBody hbody (h.child hsound hbindings)
    rw [Procedure.run_inChild]
    -- of the child the root remains, and the values that the procedure is given
    have hback : law.Ends depth ((body.run dispatcher (m.child bindings)).mapMachine fun c =>
        { m with root := c.root }) := ⟨h.back hchild.holds, hchild.fault⟩
    exact hback.andThen fun n hn => ihNext _ (hnext _ hchild.holds.stack) hn
  | emit event next ih => exact ih hbody (h.emit event)

theorem leaves_external (hsound : law.IsSound) (hD : law.DispatchesEnd (depth + 1)) {name : String}
    {body : Procedure} (hfind : m.find? name = some (.external body))
    (h : law.Holds (depth + 1) m) : law.Leaves (depth + 1) (body.run dispatcher m).wrap := by
  rcases hsound.external name body (h.binds.found name _ hfind) with hbody | hname
  · exact (ends_run hsound hD hbody h).wrap hsound.wrap hsound.longLimit
  · exact hname depth m h hfind

theorem ends_invoke (hsound : law.IsSound) (hD : law.DispatchesEnd (depth + 1)) {name : String}
    {cell : Cell} (hfind : m.find? name = some cell) (h : law.Holds (depth + 1) m) :
    law.Ends (depth + 1) (cell.invoke dispatcher name m) := by
  have hcell := h.binds.found name cell hfind
  cases cell with
  | program instructions =>
    exact ends_each hsound hD (hsound.program name _ hcell) (hsound.foreign name _ hcell) (h.emit _)
  | values items => exact .of_holds (h.push (hsound.stored name items hcell))
  | external body =>
    exact (leaves_external (m := m.emit (.called name)) hsound hD hfind (h.emit _)).ends
  | foreign content => exact .of_fault h (hsound.notACell name content hcell)

/-- Every dispatch keeps to the law, by induction over the dispatches inside. -/
theorem ends_dispatch (hsound : law.IsSound) (name : String) (h : law.Holds depth m) :
    law.Ends depth (m.dispatch name) := by
  induction name, m using dispatch_induction generalizing depth with
  | unbound name m hfind =>
    rw [dispatch_of_unbound hfind]
    exact .of_fault h (hsound.undefined name)
  | full name m cell hfind hfull =>
    rw [dispatch_of_full hfind hfull, h.limits_eq]
    exact ⟨h, fun fault hfault => Or.inr (Or.inl (Option.some.inj hfault).symm)⟩
  | nested name m cell hfind hless ih =>
    -- inside, every lawful state has the counters of the entered one
    have hD : law.DispatchesEnd (depth + 1) := fun other n hn =>
      ih other n (hn.counters.trans h.enter.counters.symm) hn
    rw [dispatch_of_room hfind hless]
    have hinvoke := ends_invoke (m := m.enter) hsound hD hfind h.enter
    exact ⟨hinvoke.holds.leave, hinvoke.fault⟩

/-- Where a name is bound to an external procedure or a stored block, only the limit and faults
wrapped once leave its dispatch. -/
theorem passes_dispatch (hsound : law.IsSound) {name : String} {cell : Cell}
    (hfind : m.find? name = some cell)
    (hcell : (∃ body, cell = .external body) ∨ ∃ items, cell = .values items)
    (h : law.Holds depth m) {fault : Fault} (hfault : (m.dispatch name).fault? = some fault) :
    law.Passes fault := by
  by_cases hfull : m.root.limits.callLimit ≤ m.root.depth
  · rw [dispatch_of_full hfind hfull, h.limits_eq] at hfault
    exact Or.inl (Option.some.inj hfault).symm
  · rw [dispatch_of_room hfind (by omega)] at hfault
    rcases hcell with ⟨body, rfl⟩ | ⟨items, rfl⟩
    · have hD : law.DispatchesEnd (depth + 1) := fun other n hn => ends_dispatch hsound other hn
      have hbody := leaves_external (m := m.enter.emit (.called name)) hsound hD hfind
        (h.enter.emit _)
      exact hbody.passes fault hfault
    · cases hfault

end

end Law

end QuoteStack
