import QuoteStack.Machine.Source
import QuoteStack.Proofs.Run.Moment
import QuoteStack.Proofs.Run.Native

/-!
What is below on the stack. A run that meets native cells only does not depend on the values below
those that it is given, as long as it does not run out of them: two runs, one with more values at
the bottom, go through the same operations. All that can tell them apart is the printing of the top
of the stack, where there is none for one of them and one for the other.
-/

namespace QuoteStack

/-- The faults of an empty stack, wrapped or not. -/
def Fault.IsUnderflow : Fault → Prop
  | .stackUnderflow => True
  | .external cause => cause.IsUnderflow
  | _ => False

theorem Fault.isUnderflow_wrap (fault : Fault) (h : fault.IsUnderflow) :
    fault.wrap.IsUnderflow := by
  cases fault with
  | stackUnderflow => trivial
  | external cause => exact h
  | _ => cases h

/-- Whether a frame is a procedure that waits for a child environment. -/
def Frame.isParent : Frame → Bool
  | .parent _ _ _ => true
  | _ => false

namespace Moment

/-- What waits does so in the environment in which the run has started. -/
def AtHome (frames : List Frame) : Prop :=
  ∀ frame ∈ frames, frame.isParent = false

/-- The top of the stack is about to be printed in the environment in which the run has started, and
there is none. -/
structure PrintsNothing (s : Moment) : Prop where
  activity : s.activity = .procedure Builtin.print
  home : AtHome s.frames
  stack : s.machine.stack = []

end Moment

namespace Machine

open Moment (Reaches AtHome)

/-- The state with more values at the bottom of the stack. -/
def onTopOf (m : Machine) (below : List Value) : Machine :=
  { m with stack := m.stack ++ below }

/-- The second state is the first one with more values at the bottom of the stack. The journals may
differ unless it is quiet. -/
structure StandsOn (quiet : Prop) (below : List Value) (m n : Machine) : Prop where
  stack : n.stack = m.stack ++ below
  scope : n.scope = m.scope
  counters : n.counters = m.counters
  minted : n.root.minted = m.root.minted
  journal : quiet → n.root.journal = m.root.journal

/-- From a moment on, values below are not seen when it is quiet: there are none, or the run is in
its first environment and never prints the top of an empty stack there. -/
def Hidden (quiet : Prop) (below : List Value) (s : Moment) : Prop :=
  below = [] ∨ AtHome s.frames ∧ (quiet → ∀ t, Reaches s t → ¬ t.PrintsNothing)

theorem Hidden.of_reaches {quiet : Prop} {below : List Value} {s t : Moment}
    (h : Hidden quiet below s) (hst : Reaches s t) (hframes : AtHome s.frames → AtHome t.frames) :
    Hidden quiet below t := by
  rcases h with hnone | ⟨hhome, hprints⟩
  · exact Or.inl hnone
  · exact Or.inr ⟨hframes hhome, fun hquiet u hu => hprints hquiet u (hst.trans hu)⟩

/-- A step does not leave home if it leaves all frames that wait, and adds none of a child. -/
theorem atHome_cons {frame : Frame} {frames : List Frame} (hframe : frame.isParent = false)
    (h : AtHome frames) : AtHome (frame :: frames) := by
  intro other hother
  rcases List.mem_cons.mp hother with rfl | hother
  · exact hframe
  · exact h other hother

/-! ## Single operations -/

namespace StandsOn

variable {quiet : Prop} {below : List Value} {m n : Machine}

theorem find?_eq (h : StandsOn quiet below m n) (name : String) : n.find? name = m.find? name := by
  rw [find?, find?, h.scope]

theorem depth_eq (h : StandsOn quiet below m n) : n.root.depth = m.root.depth :=
  congrArg Prod.fst h.counters

theorem limits_eq (h : StandsOn quiet below m n) : n.root.limits = m.root.limits :=
  congrArg Prod.snd h.counters

theorem restack {stack stack' : List Value} (h : StandsOn quiet below m n)
    (hstack : stack' = stack ++ below) :
    StandsOn quiet below { m with stack } { n with stack := stack' } :=
  ⟨hstack, h.scope, h.counters, h.minted, h.journal⟩

theorem push (h : StandsOn quiet below m n) (v : Value) :
    StandsOn quiet below (m.push v) (n.push v) :=
  h.restack (by rw [h.stack]; rfl)

theorem emit (h : StandsOn quiet below m n) (event : Event) :
    StandsOn quiet below (m.emit event) (n.emit event) where
  stack := h.stack
  scope := h.scope
  counters := h.counters
  minted := h.minted
  journal hquiet := by
    show event :: n.root.journal = event :: m.root.journal
    rw [h.journal hquiet]

theorem nextName_eq (h : StandsOn quiet below m n) : n.nextName = m.nextName := by
  rw [nextName, nextName, h.minted]

theorem registerNew (h : StandsOn quiet below m n) (name : String) (cell : Cell) :
    StandsOn quiet below (m.countName.set name cell) (n.countName.set name cell) where
  stack := h.stack
  scope := by
    show n.scope.set name cell = m.scope.set name cell
    rw [h.scope]
  counters := h.counters
  minted := congrArg (· + 1) h.minted
  journal := h.journal

/-- A child starts with an empty stack, whatever is below on the stack of its parent. -/
theorem child (h : StandsOn quiet below m n) (bindings : List (String × Value)) :
    StandsOn quiet [] (m.child bindings) (n.child bindings) where
  stack := rfl
  scope := by
    show n.scope.enter _ = m.scope.enter _
    rw [h.scope]
  counters := h.counters
  minted := h.minted
  journal := h.journal

theorem back {c d : Machine} (h : StandsOn quiet below m n) (hc : StandsOn quiet [] c d) :
    StandsOn quiet below { m with root := c.root } { n with root := d.root } :=
  ⟨h.stack, h.scope, hc.counters, hc.minted, hc.journal⟩

theorem enter (h : StandsOn quiet below m n) : StandsOn quiet below m.enter n.enter where
  stack := h.stack
  scope := h.scope
  counters := counters_enter_congr h.counters
  minted := h.minted
  journal := h.journal

theorem leave (h : StandsOn quiet below m n) : StandsOn quiet below m.leave n.leave where
  stack := h.stack
  scope := h.scope
  counters := counters_leave_congr h.counters
  minted := h.minted
  journal := h.journal

end StandsOn

/-! ## Two runs -/

/-- The moments of a run go on behind what has ended without a fault. -/
theorem reaches_program_rest {v : Value} {rest : List Instruction} {frames : List Frame}
    {m : Machine} (h : (v.execute dispatcher m).fault? = none) :
    Reaches ⟨.program (.value v :: rest), frames, m⟩
      ⟨.program rest, frames, (v.execute dispatcher m).machine⟩ := by
  have hvalue := Moment.reaches_value (Moment.dispatchesEnd _) v (.program rest :: frames) m rfl
  refine .step rfl (hvalue.trans (.step ?_ (.refl _)))
  rw [Moment.ended, h]
  rfl

theorem reaches_procedure_next {v : Value} {next : Procedure} {frames : List Frame} {m : Machine}
    (h : (v.execute dispatcher m).fault? = none) :
    Reaches ⟨.procedure (.execute v next), frames, m⟩
      ⟨.procedure next, frames, (v.execute dispatcher m).machine⟩ := by
  have hvalue := Moment.reaches_value (Moment.dispatchesEnd _) v (.procedure next :: frames) m rfl
  refine .step rfl (hvalue.trans (.step ?_ (.refl _)))
  rw [Moment.ended, h]
  rfl

theorem reaches_parent_next {bindings : List (String × Value)} {body : Procedure}
    {next : List Value → Procedure} {frames : List Frame} {m : Machine}
    (h : (body.run dispatcher (m.child bindings)).fault? = none) :
    Reaches ⟨.procedure (.inChild bindings body next), frames, m⟩
      ⟨.procedure (next (body.run dispatcher (m.child bindings)).machine.stack), frames,
        { m with root := (body.run dispatcher (m.child bindings)).machine.root }⟩ := by
  have hbody := Moment.reaches_run body (.parent m.stack m.scope next :: frames) (m.child bindings)
  refine .step rfl (hbody.trans (.step ?_ (.refl _)))
  rw [Moment.ended, h]
  rfl

/-- Dispatches from states of the given counters keep to what they are given. -/
def DispatchesKeep (c : Nat × Limits) (quiet : Prop) : Prop :=
  ∀ name frames below (m n : Machine), m.counters = c → m.IsNative → StandsOn quiet below m n →
    Hidden quiet below ⟨.dispatch name, frames, m⟩ →
      (m.dispatch name).Matches (StandsOn quiet below) Fault.IsUnderflow (n.dispatch name)

section
variable {c : Nat × Limits} {quiet : Prop}

theorem dispatchesAdvance_dispatcher : DispatchesAdvance dispatcher :=
  fun name m hm => advances_dispatchWithin m.room name m hm

theorem matches_value (hD : DispatchesKeep c quiet) (v : Value) (frames : List Frame)
    (below : List Value) (m n : Machine) (hm : m.counters = c) (hnative : m.IsNative)
    (h : StandsOn quiet below m n) (hhidden : Hidden quiet below ⟨.value v, frames, m⟩) :
    (v.execute dispatcher m).Matches (StandsOn quiet below) Fault.IsUnderflow
      (v.execute dispatcher n) := by
  cases v with
  | number x => exact .of_eq (h.push _)
  | block items => exact .of_eq (h.push _)
  | symbol name =>
    exact hD name frames below m n hm hnative h (hhidden.of_reaches (.step rfl (.refl _)) id)

theorem matches_each (hD : DispatchesKeep c quiet) (program : List Instruction)
    (frames : List Frame) (below : List Value) (m n : Machine) (hm : m.counters = c)
    (hnative : m.IsNative) (h : StandsOn quiet below m n)
    (hhidden : Hidden quiet below ⟨.program program, frames, m⟩) :
    (executeEach dispatcher program m).Matches (StandsOn quiet below) Fault.IsUnderflow
      (executeEach dispatcher program n) := by
  induction program generalizing m n with
  | nil => exact .of_eq h
  | cons instruction rest ih =>
    cases instruction with
    | foreign kind => exact .of_eq h
    | value v =>
      have hvalue := matches_value hD v (.program rest :: frames) below m n hm hnative h
        (hhidden.of_reaches (.step rfl (.refl _)) (atHome_cons rfl))
      refine hvalue.andThen_of_ok fun hfault hR => ?_
      exact ih _ _ ((counters_value v m).trans hm)
        ((advances_value dispatchesAdvance_dispatcher v hnative).native hnative) hR
        (hhidden.of_reaches (reaches_program_rest hfault) id)

theorem matches_run (hD : DispatchesKeep c quiet) {body : Procedure} (hbody : body.IsModest)
    (frames : List Frame) (below : List Value) (m n : Machine) (hm : m.counters = c)
    (hnative : m.IsNative) (h : StandsOn quiet below m n)
    (hhidden : Hidden quiet below ⟨.procedure body, frames, m⟩) :
    (body.run dispatcher m).Matches (StandsOn quiet below) Fault.IsUnderflow
      (body.run dispatcher n) := by
  induction hbody generalizing frames below m n with
  | done => exact .of_eq h
  | fail fault => exact .of_eq h
  | @push v _ _ ih =>
    exact ih frames below _ _ hm hnative (h.push v) (hhidden.of_reaches (.step rfl (.refl _)) id)
  | @pop next _ ih =>
    have hstack := h.stack
    simp only [Procedure.run, hstack]
    cases htop : m.stack with
    | nil =>
      -- there is nothing left to take for the first run
      exact Or.inl ⟨.stackUnderflow, rfl, trivial⟩
    | cons v rest =>
      have hstep : Reaches ⟨.procedure (.pop next), frames, m⟩
          ⟨.procedure (next v), frames, { m with stack := rest }⟩ := by
        refine .step ?_ (.refl _)
        simp only [Moment.next?, Moment.afterProcedure, htop]
      exact ih v frames below { m with stack := rest } { n with stack := rest ++ below } hm hnative
        (h.restack rfl) (hhidden.of_reaches hstep id)
  | context _ ih =>
    simp only [Procedure.run, h.limits_eq]
    exact ih _ frames below m n hm hnative h (hhidden.of_reaches (.step rfl (.refl _)) id)
  | @popBindings next _ ih =>
    have hstack := h.stack
    simp only [Procedure.run, hstack]
    obtain ⟨bindings, rest, hspan⟩ : ∃ bindings rest, spanBindings [] m.stack = (bindings, rest) :=
      ⟨_, _, rfl⟩
    cases rest with
    | nil =>
      rw [hspan]
      exact Or.inl ⟨.stackUnderflow, rfl, trivial⟩
    | cons v rest =>
      rw [hspan, spanBindings_append hspan]
      have hstep : Reaches ⟨.procedure (.popBindings next), frames, m⟩
          ⟨.procedure (next bindings v), frames, { m with stack := rest }⟩ := by
        refine .step ?_ (.refl _)
        simp only [Moment.next?, Moment.afterProcedure, hspan]
      exact ih bindings v frames below { m with stack := rest } { n with stack := rest ++ below } hm
        hnative (h.restack rfl) (hhidden.of_reaches hstep id)
  | @registerNew cell next hcell _ ih =>
    simp only [Procedure.run, h.nextName_eq]
    have hnew := Advances.registerNew m (hcell m.nextName)
    exact ih m.nextName frames below _ _ (hnew.counters.trans hm) (hnew.native hnative)
      (h.registerNew _ _) (hhidden.of_reaches (.step rfl (.step rfl (.refl _))) id)
  | @execute v next _ ih =>
    have hvalue := matches_value hD v (.procedure next :: frames) below m n hm hnative h
      (hhidden.of_reaches (.step rfl (.refl _)) (atHome_cons rfl))
    refine hvalue.andThen_of_ok fun hfault hR => ?_
    exact ih frames below _ _ ((counters_value v m).trans hm)
      ((advances_value dispatchesAdvance_dispatcher v hnative).native hnative) hR
      (hhidden.of_reaches (reaches_procedure_next hfault) id)
  | @inChild bindings body next hmodest _ ihBody ihNext =>
    -- the child has nothing below, so there it makes no difference what is printed
    have hchild := ihBody (.parent m.stack m.scope next :: frames) [] (m.child bindings)
      (n.child bindings) hm (hnative.child bindings) (h.child bindings) (Or.inl rfl)
    have hadvance := advances_run dispatchesAdvance_dispatcher hmodest (hnative.child bindings)
    rw [Procedure.run_inChild, Procedure.run_inChild]
    refine (hchild.mapMachine fun c d hc => h.back hc).andThen_of_ok fun hfault hback => ?_
    have hstack := (hchild.of_ok hfault).stack
    rw [hstack, List.append_nil]
    exact ihNext _ frames below _ _ ((counters_run body (m.child bindings)).trans hm)
      (hadvance.back.native hnative) hback (hhidden.of_reaches (reaches_parent_next hfault) id)
  | @emit event next _ ih =>
    exact ih frames below _ _ hm hnative (h.emit event)
      (hhidden.of_reaches (.step rfl (.refl _)) id)

/-- Printing tells two states apart only where the stack of the first one is empty. -/
theorem matches_print (frames : List Frame) (below : List Value) (m n : Machine)
    (h : StandsOn quiet below m n)
    (hhidden : Hidden quiet below ⟨.procedure Builtin.print, frames, m⟩) :
    (Builtin.print.run dispatcher m).Matches (StandsOn quiet below) Fault.IsUnderflow
      (Builtin.print.run dispatcher n) := by
  have htop : quiet → n.stack.head? = m.stack.head? := by
    intro hquiet
    rw [h.stack]
    cases hstack : m.stack with
    | cons v rest => rfl
    | nil =>
      rcases hhidden with rfl | ⟨hhome, hprints⟩
      · rfl
      · exact absurd ⟨rfl, hhome, hstack⟩ (hprints hquiet _ (.refl _))
  refine Or.inr ⟨rfl, h.stack, h.scope, h.counters, h.minted, fun hquiet => ?_⟩
  simp only [Builtin.print, Procedure.run, htop hquiet]
  exact ((h.emit _).emit _).journal hquiet

theorem matches_cell (hD : DispatchesKeep c quiet) (name : String) {cell : Cell}
    (hcell : cell.IsNative) (frames : List Frame) (below : List Value) (m n : Machine)
    (hm : m.counters = c) (hnative : m.IsNative) (h : StandsOn quiet below m n)
    (hhidden : Hidden quiet below ⟨.cell name cell, frames, m⟩) :
    (cell.invoke dispatcher name m).Matches (StandsOn quiet below) Fault.IsUnderflow
      (cell.invoke dispatcher name n) := by
  cases cell with
  | program instructions =>
    exact matches_each hD instructions frames below _ _ hm hnative (h.emit _)
      (hhidden.of_reaches (.step rfl (.refl _)) id)
  | values items => exact .of_eq (h.push _)
  | external body =>
    have hrun : (body.run dispatcher (m.emit (.called name))).Matches (StandsOn quiet below)
        Fault.IsUnderflow (body.run dispatcher (n.emit (.called name))) := by
      have hcalled := hhidden.of_reaches (.step rfl (.refl _)) id
      rcases hcell.external with rfl | hbody
      · exact matches_print frames below _ _ (h.emit _) hcalled
      · exact matches_run hD hbody frames below _ _ hm hnative (h.emit _) hcalled
    exact hrun.wrap Fault.isUnderflow_wrap
  | foreign content => exact .of_eq h

/-- Every dispatch keeps to what it is given, by induction over the dispatches inside. -/
theorem matches_dispatch (quiet : Prop) (name : String) (frames : List Frame) (below : List Value)
    (m n : Machine) (hnative : m.IsNative) (h : StandsOn quiet below m n)
    (hhidden : Hidden quiet below ⟨.dispatch name, frames, m⟩) :
    (m.dispatch name).Matches (StandsOn quiet below) Fault.IsUnderflow (n.dispatch name) := by
  induction name, m using dispatch_induction generalizing frames below n with
  | unbound name m hfind =>
    rw [dispatch_of_unbound hfind, dispatch_of_unbound ((h.find?_eq name).trans hfind)]
    exact .of_eq h
  | full name m cell hfind hfull =>
    have hfull' : n.root.limits.callLimit ≤ n.root.depth := by
      rw [h.limits_eq, h.depth_eq]
      exact hfull
    rw [dispatch_of_full hfind hfull, dispatch_of_full ((h.find?_eq name).trans hfind) hfull',
      h.limits_eq]
    exact .of_eq h
  | nested name m cell hfind hless ih =>
    have hless' : (n.root.depth : Int) < n.root.limits.callLimit := by
      rw [h.limits_eq, h.depth_eq]
      exact hless
    have hD : DispatchesKeep m.enter.counters quiet :=
      fun inner frames below l l' hl hnative h hhidden =>
        ih inner l hl frames below l' hnative h hhidden
    -- what runs inside is reached from here, so it does not print the empty stack either
    have hbegin : Reaches ⟨.dispatch name, frames, m⟩
        ⟨.cell name cell, .dispatch cell.wraps :: frames, m.enter⟩ := by
      refine .step ?_ (.refl _)
      simp only [Moment.next?, Moment.afterDispatch, hfind, Int.not_le.mpr hless, if_false]
    rw [dispatch_of_room hfind hless, dispatch_of_room ((h.find?_eq name).trans hfind) hless']
    have hcell := matches_cell hD name (hnative name cell hfind) (.dispatch cell.wraps :: frames)
      below m.enter n.enter rfl hnative h.enter (hhidden.of_reaches hbegin (atHome_cons rfl))
    exact hcell.mapMachine fun _ _ hR => hR.leave

/-- Values at the bottom of the stack do not count. A program that meets native cells only, and does
not end with the fault of an empty stack, ends in the same way with more values at the bottom: with
the same fault or none, with the same values on top of them, and with the same bindings and the same
count of closures. What it prints and logs is the same too, unless it prints the top of the empty
stack of its environment. -/
theorem execute_onTopOf (m : Machine) (hnative : m.IsNative) (program : List Instruction)
    (below : List Value)
    (hend : ∀ fault, (m.execute program).fault? = some fault → ¬ fault.IsUnderflow) :
    ((m.onTopOf below).execute program).fault? = (m.execute program).fault? ∧
      ((m.onTopOf below).execute program).machine.stack =
        (m.execute program).machine.stack ++ below ∧
      ((m.onTopOf below).execute program).machine.scope = (m.execute program).machine.scope ∧
      ((m.onTopOf below).execute program).machine.root.minted =
        (m.execute program).machine.root.minted ∧
      ((∀ s, Reaches ⟨.program program, [], m⟩ s → ¬ s.PrintsNothing) →
        ((m.onTopOf below).execute program).events = (m.execute program).events) := by
  have hstart : StandsOn (∀ s, Reaches ⟨.program program, [], m⟩ s → ¬ s.PrintsNothing) below m
      (m.onTopOf below) := ⟨rfl, rfl, rfl, rfl, fun _ => rfl⟩
  have hmatch := matches_each (c := m.counters)
    (fun name frames below l l' _ hnative h hhidden =>
      matches_dispatch _ name frames below l l' hnative h hhidden)
    program [] below m _ rfl hnative hstart
    (Or.inr ⟨fun frame hframe => absurd hframe List.not_mem_nil, fun hquiet => hquiet⟩)
  rw [execute_eq, execute_eq]
  rw [execute_eq] at hend
  rcases hmatch with ⟨fault, hfault, hlost⟩ | ⟨hfault, hR⟩
  · exact absurd hlost (hend fault hfault)
  · refine ⟨hfault.symm, hR.stack, hR.scope, hR.minted, fun hquiet => ?_⟩
    rw [Outcome.events, Outcome.events, hR.journal hquiet]

/-- A local binding takes its pairs, and the closure that it runs, from the top of the stack. -/
theorem execute_onTopOf_local_binding :
    let program : List Instruction :=
      [.value (.block [.symbol "xx"]), .value (.symbol "do"),
        .value (.block [.number (.ofNat 5), .symbol "xx"]), .value (.symbol "let")]
    let m := Machine.new {}
    let below : List Value := [.number (.ofNat 7)]
    m.IsNative ∧
      (∀ fault, (m.execute program).fault? = some fault → ¬ fault.IsUnderflow) ∧
      ((m.onTopOf below).execute program).fault? = (m.execute program).fault? ∧
      ((m.onTopOf below).execute program).machine.stack =
        (m.execute program).machine.stack ++ below := by
  intro program m below
  have hnone : (m.execute program).fault? = none := Option.isNone_iff_eq_none.mp (by decide)
  have hend : ∀ fault, (m.execute program).fault? = some fault → ¬ fault.IsUnderflow := by
    intro fault hfault
    rw [hnone] at hfault
    cases hfault
  have hresult := execute_onTopOf m (isNative_new _) program below hend
  exact ⟨isNative_new _, hend, hresult.1, hresult.2.1⟩

end

end Machine

end QuoteStack
