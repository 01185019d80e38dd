import Mathlib.Logic.Relation
import QuoteStack.Proofs.Run.Depth

/-!
The moments of a run. A run is taken apart into single steps, between which everything that waits
for something else to end is kept as a list of frames, the innermost first. From every start the
steps come to an end, and they end with the outcome that executing the program has. A fault fails
all that waits, so a run that ends without one has met no dispatch that was refused. At each moment
on the way the depth counts the frames of dispatches.
-/

namespace QuoteStack

/-- What is done at a moment of a run. -/
inductive Activity where
  /-- A name is about to be dispatched. -/
  | dispatch (name : String)
  /-- The cell of a name has been found, and its dispatch has begun. -/
  | cell (name : String) (cell : Cell)
  | value (v : Value)
  | program (instructions : List Instruction)
  | procedure (body : Procedure)
  /-- Something has ended, with a fault or without. -/
  | finished (fault? : Option Fault)

/-- What waits for something else to end. -/
inductive Frame where
  /-- The rest of a program. -/
  | program (rest : List Instruction)
  /-- The rest of a procedure. -/
  | procedure (next : Procedure)
  /-- A procedure in the environment around a child, which goes on with the stack of the child. -/
  | parent (stack : List Value) (scope : Scope) (next : List Value → Procedure)
  /-- A dispatch in progress, and whether it wraps faults. -/
  | dispatch (wraps : Bool)

/-- Whether faults are wrapped on the way out of a dispatch: external procedures have theirs
wrapped. -/
def Cell.wraps : Cell → Bool
  | .external _ => true
  | _ => false

/-- Whether a frame is a dispatch in progress. -/
def Frame.isDispatch : Frame → Bool
  | .dispatch _ => true
  | _ => false

/-- A moment of a run. -/
structure Moment where
  activity : Activity
  frames : List Frame
  machine : Machine

namespace Moment

/-- How many dispatches are in progress. -/
def dispatches (s : Moment) : Nat :=
  s.frames.countP Frame.isDispatch

/-- The moment at which something has ended, while the frames still wait. -/
def ended (frames : List Frame) (o : Outcome) : Moment :=
  ⟨.finished o.fault?, frames, o.machine⟩

/-- Looks a name up, and begins its dispatch unless the limit is reached. -/
def afterDispatch (name : String) (frames : List Frame) (m : Machine) : Moment :=
  match m.find? name with
  | none => ⟨.finished (some (.undefinedSymbol name)), frames, m⟩
  | some cell =>
    if m.root.limits.callLimit ≤ m.root.depth then
      ⟨.finished (some m.root.limits.depthFault), frames, m⟩
    else ⟨.cell name cell, .dispatch cell.wraps :: frames, m.enter⟩

/-- Begins what a cell holds. -/
def afterCell (name : String) (cell : Cell) (frames : List Frame) (m : Machine) : Moment :=
  match cell with
  | .program instructions => ⟨.program instructions, frames, m.emit (.entered name)⟩
  | .values items => ⟨.finished none, frames, m.push (.block items)⟩
  | .external body => ⟨.procedure body, frames, m.emit (.called name)⟩
  | .foreign content => ⟨.finished (some (.notACell name content)), frames, m⟩

/-- Pushes a number or a block, and passes a symbol on. -/
def afterValue (v : Value) (frames : List Frame) (m : Machine) : Moment :=
  match v with
  | .number n => ⟨.finished none, frames, m.push (.block [.number n])⟩
  | .block items => ⟨.finished none, frames, m.push (.block items)⟩
  | .symbol name => ⟨.dispatch name, frames, m⟩

/-- Begins the first instruction. -/
def afterProgram (instructions : List Instruction) (frames : List Frame) (m : Machine) : Moment :=
  match instructions with
  | [] => ⟨.finished none, frames, m⟩
  | .value v :: rest => ⟨.value v, .program rest :: frames, m⟩
  | .foreign kind :: _ => ⟨.finished (some (.notExecutable kind)), frames, m⟩

/-- Does one operation of a procedure. -/
def afterProcedure (body : Procedure) (frames : List Frame) (m : Machine) : Moment :=
  match body with
  | .done => ⟨.finished none, frames, m⟩
  | .fail fault => ⟨.finished (some fault), frames, m⟩
  | .push v next => ⟨.procedure next, frames, m.push v⟩
  | .pop next =>
    match m.stack with
    | [] => ⟨.finished (some .stackUnderflow), frames, m⟩
    | v :: rest => ⟨.procedure (next v), frames, { m with stack := rest }⟩
  | .peek next => ⟨.procedure (next m.stack.head?), frames, m⟩
  | .clear next => ⟨.procedure next, frames, { m with stack := [] }⟩
  | .height next => ⟨.procedure (next m.stack.length), frames, m⟩
  | .depth next => ⟨.procedure (next m.root.depth), frames, m⟩
  | .context next => ⟨.procedure (next m.root.limits.toContext), frames, m⟩
  | .popBindings next =>
    match Machine.spanBindings [] m.stack with
    | (_, []) => ⟨.finished (some .stackUnderflow), frames, { m with stack := [] }⟩
    | (bindings, v :: rest) => ⟨.procedure (next bindings v), frames, { m with stack := rest }⟩
  | .mint next => ⟨.procedure (next m.nextName), frames, m.countName⟩
  | .register name cell next => ⟨.procedure next, frames, m.set name cell⟩
  | .execute v next => ⟨.value v, .procedure next :: frames, m⟩
  | .inChild bindings body next =>
    ⟨.procedure body, .parent m.stack m.scope next :: frames, m.child bindings⟩
  | .emit event next => ⟨.procedure next, frames, m.emit event⟩

/-- Gives the end of something to the innermost frame, if any is left. -/
def afterEnd? (fault? : Option Fault) (frames : List Frame) (m : Machine) : Option Moment :=
  match frames, fault? with
  | [], _ => none
  | .program rest :: frames, none => some ⟨.program rest, frames, m⟩
  | .program _ :: frames, some fault => some ⟨.finished (some fault), frames, m⟩
  | .procedure next :: frames, none => some ⟨.procedure next, frames, m⟩
  | .procedure _ :: frames, some fault => some ⟨.finished (some fault), frames, m⟩
  | .parent stack scope next :: frames, none =>
    some ⟨.procedure (next m.stack), frames, ⟨stack, scope, m.root⟩⟩
  | .parent stack scope _ :: frames, some fault =>
    some ⟨.finished (some fault), frames, ⟨stack, scope, m.root⟩⟩
  | .dispatch wraps :: frames, fault? =>
    some ⟨.finished (if wraps then fault?.map Fault.wrap else fault?), frames, m.leave⟩

/-- The next moment, if the run has not ended. -/
def next? (s : Moment) : Option Moment :=
  match s.activity with
  | .dispatch name => some (afterDispatch name s.frames s.machine)
  | .cell name cell => some (afterCell name cell s.frames s.machine)
  | .value v => some (afterValue v s.frames s.machine)
  | .program instructions => some (afterProgram instructions s.frames s.machine)
  | .procedure body => some (afterProcedure body s.frames s.machine)
  | .finished fault? => afterEnd? fault? s.frames s.machine

/-- The second moment comes after the first, or is the same. -/
def Reaches : Moment → Moment → Prop :=
  Relation.ReflTransGen fun s t => s.next? = some t

theorem Reaches.refl (s : Moment) : Reaches s s :=
  Relation.ReflTransGen.refl

theorem Reaches.step {s t u : Moment} (h : s.next? = some t) (ht : Reaches t u) : Reaches s u :=
  Relation.ReflTransGen.head h ht

theorem Reaches.trans {s t u : Moment} (h : Reaches s t) (ht : Reaches t u) : Reaches s u :=
  Relation.ReflTransGen.trans h ht

/-- The moment some steps later, or the last one. -/
def later : Nat → Moment → Moment
  | 0, s => s
  | n + 1, s =>
    match s.next? with
    | some t => later n t
    | none => s

theorem reaches_later (n : Nat) (s : Moment) : Reaches s (s.later n) := by
  induction n generalizing s with
  | zero => exact .refl s
  | succ n ih =>
    rw [later]
    cases hnext : s.next? with
    | none => exact .refl s
    | some t => exact .step hnext (ih t)

/-! ## Runs end -/

variable {c : Nat × Limits}

/-- Dispatches in states of the given counters end, with the outcome that they have. -/
def DispatchesEnd (c : Nat × Limits) : Prop :=
  ∀ name frames (m : Machine), m.counters = c →
    Reaches ⟨.dispatch name, frames, m⟩ (ended frames (m.dispatch name))

theorem reaches_value (hD : DispatchesEnd c) (v : Value) (frames : List Frame) (m : Machine)
    (hm : m.counters = c) :
    Reaches ⟨.value v, frames, m⟩ (ended frames (v.execute Machine.dispatcher m)) := by
  cases v with
  | number n => exact .step rfl (.refl _)
  | block items => exact .step rfl (.refl _)
  | symbol name => exact .step rfl (hD name frames m hm)

/-- A program ends if its dispatches do: the rest of it waits in a frame for each value. -/
theorem reaches_program (hD : DispatchesEnd c) (program : List Instruction) (frames : List Frame)
    (m : Machine) (hm : m.counters = c) :
    Reaches ⟨.program program, frames, m⟩
      (ended frames (executeEach Machine.dispatcher program m)) := by
  induction program generalizing m with
  | nil => exact .step rfl (.refl _)
  | cons instruction rest ih =>
    cases instruction with
    | foreign kind => exact .step rfl (.refl _)
    | value v =>
      -- the rest waits while the value is executed
      refine .step rfl ((reaches_value hD v (.program rest :: frames) m hm).trans ?_)
      have hcounters := (Machine.counters_value v m).trans hm
      simp only [executeEach, Instruction.execute]
      generalize v.execute Machine.dispatcher m = o at hcounters ⊢
      obtain ⟨fault?, n⟩ := o
      cases fault? with
      | none => exact .step rfl (ih n hcounters)
      | some fault => exact .step rfl (.refl _)

/-- A procedure ends if its dispatches do: it has no loops. -/
theorem reaches_procedure (hD : DispatchesEnd c) (body : Procedure) (frames : List Frame)
    (m : Machine) (hm : m.counters = c) :
    Reaches ⟨.procedure body, frames, m⟩ (ended frames (body.run Machine.dispatcher m)) := by
  induction body generalizing frames m with
  | done => exact .step rfl (.refl _)
  | fail fault => exact .step rfl (.refl _)
  | push v next ih => exact .step rfl (ih frames (m.push v) hm)
  | pop next ih =>
    obtain ⟨stack, scope, root⟩ := m
    cases stack with
    | nil => exact .step rfl (.refl _)
    | cons v rest => exact .step rfl (ih v frames _ hm)
  | peek next ih => exact .step rfl (ih _ frames m hm)
  | clear next ih => exact .step rfl (ih frames _ hm)
  | height next ih => exact .step rfl (ih _ frames m hm)
  | depth next ih => exact .step rfl (ih _ frames m hm)
  | context next ih => exact .step rfl (ih _ frames m hm)
  | popBindings next ih =>
    refine .step rfl ?_
    simp only [afterProcedure, Procedure.run]
    generalize Machine.spanBindings [] m.stack = split
    obtain ⟨bindings, rest⟩ := split
    cases rest with
    | nil => exact .refl _
    | cons v rest => exact ih bindings v frames _ hm
  | mint next ih => exact .step rfl (ih _ frames _ hm)
  | register name cell next ih => exact .step rfl (ih frames _ hm)
  | execute v next ih =>
    -- what is left of the procedure waits in a frame until the value has run
    refine .step rfl ((reaches_value hD v (.procedure next :: frames) m hm).trans ?_)
    have hcounters := (Machine.counters_value v m).trans hm
    simp only [Procedure.run]
    generalize v.execute Machine.dispatcher m = o at hcounters ⊢
    obtain ⟨fault?, n⟩ := o
    cases fault? with
    | none => exact .step rfl (ih frames n hcounters)
    | some fault => exact .step rfl (.refl _)
  | inChild bindings body next ihBody ihNext =>
    -- the stack and the scope around the child wait with it
    refine .step rfl ((ihBody (.parent m.stack m.scope next :: frames) (m.child bindings) hm).trans ?_)
    have hcounters := (Machine.counters_run body (m.child bindings)).trans hm
    simp only [Procedure.run]
    generalize body.run Machine.dispatcher (m.child bindings) = o at hcounters ⊢
    obtain ⟨fault?, child⟩ := o
    cases fault? with
    | none => exact .step rfl (ihNext _ frames _ hcounters)
    | some fault => exact .step rfl (.refl _)
  | emit event next ih => exact .step rfl (ih frames _ hm)

/-- What a cell holds ends if its dispatches do, and then its own dispatch ends. -/
theorem reaches_cell (hD : DispatchesEnd c) (name : String) (cell : Cell) (frames : List Frame)
    (m : Machine) (hm : m.counters = c) :
    Reaches ⟨.cell name cell, .dispatch cell.wraps :: frames, m⟩
      (ended frames ((cell.invoke Machine.dispatcher name m).mapMachine Machine.leave)) := by
  cases cell with
  | program instructions =>
    have hbody := reaches_program hD instructions (.dispatch false :: frames)
      (m.emit (.entered name)) hm
    exact .step rfl (hbody.trans (.step rfl (.refl _)))
  | values items => exact .step rfl (.step rfl (.refl _))
  | external body =>
    have hbody := reaches_procedure hD body (.dispatch true :: frames)
      (m.emit (.called name)) hm
    exact .step rfl (hbody.trans (.step rfl (.refl _)))
  | foreign content => exact .step rfl (.step rfl (.refl _))

/-- Every dispatch ends, by induction over the dispatches inside of it. -/
theorem reaches_dispatch (name : String) (frames : List Frame) (m : Machine) :
    Reaches ⟨.dispatch name, frames, m⟩ (ended frames (m.dispatch name)) := by
  induction name, m using Machine.dispatch_induction generalizing frames with
  | unbound name m hfind =>
    refine .step rfl ?_
    rw [afterDispatch, hfind, Machine.dispatch_of_unbound hfind]
    exact .refl _
  | full name m cell hfind hfull =>
    refine .step rfl ?_
    rw [afterDispatch, hfind, Machine.dispatch_of_full hfind hfull]
    simp only [hfull, if_true]
    exact .refl _
  | nested name m cell hfind hless ih =>
    have hD : DispatchesEnd m.enter.counters := fun inner frames n hn => ih inner n hn frames
    refine .step rfl ?_
    rw [afterDispatch, hfind, Machine.dispatch_of_room hfind hless]
    simp only [Int.not_le.mpr hless, if_false]
    exact reaches_cell hD name cell frames m.enter rfl

theorem dispatchesEnd (c : Nat × Limits) : DispatchesEnd c :=
  fun name frames m _ => reaches_dispatch name frames m

/-- Every run of a program ends, with the outcome of executing it. -/
theorem reaches_execute (program : List Instruction) (frames : List Frame) (m : Machine) :
    Reaches ⟨.program program, frames, m⟩ (ended frames (m.execute program)) := by
  rw [Machine.execute_eq]
  exact reaches_program (dispatchesEnd _) program frames m rfl

/-- Every run of a procedure ends, with the outcome that it has. -/
theorem reaches_run (body : Procedure) (frames : List Frame) (m : Machine) :
    Reaches ⟨.procedure body, frames, m⟩ (ended frames (body.run Machine.dispatcher m)) :=
  reaches_procedure (dispatchesEnd _) body frames m rfl

/-- There is one next moment only, so each moment that a run goes through leads to its end. -/
theorem reaches_of_ended {s t u : Moment} (hend : Reaches s u) (hu : u.next? = none)
    (h : Reaches s t) : Reaches t u := by
  induction h with
  | refl => exact hend
  | @tail b t _ hnext ih =>
    -- the way from `b` to the end starts with the step to `t`
    rcases Relation.ReflTransGen.cases_head ih with rfl | ⟨t', hnext', ht'⟩
    · rw [hu] at hnext
      cases hnext
    · rw [hnext] at hnext'
      injection hnext' with ht
      exact ht ▸ ht'

/-- What has failed fails all that waits for it. -/
theorem failed_of_reaches {s t : Moment} {fault : Fault}
    (hs : s.activity = .finished (some fault)) (h : Reaches s t) :
    ∃ fault', t.activity = .finished (some fault') := by
  induction h with
  | refl => exact ⟨fault, hs⟩
  | @tail b t _ hnext ih =>
    obtain ⟨fault', hb⟩ := ih
    obtain ⟨activity, frames, m⟩ := b
    obtain rfl : activity = .finished (some fault') := hb
    rcases frames with _ | ⟨rest | next | ⟨stack, scope, next⟩ | wraps, frames⟩
    · cases hnext
    · obtain rfl := Option.some.inj hnext
      exact ⟨_, rfl⟩
    · obtain rfl := Option.some.inj hnext
      exact ⟨_, rfl⟩
    · obtain rfl := Option.some.inj hnext
      exact ⟨_, rfl⟩
    · obtain rfl := Option.some.inj hnext
      cases wraps <;> exact ⟨_, rfl⟩

/-- Where a run ends without a fault, each dispatch on the way is of a name that is bound, and stays
below the limit. -/
theorem dispatch_of_ended {s t u : Moment} (hend : Reaches s u) (hu : u.next? = none)
    (hok : u.activity = .finished none) (h : Reaches s t) {name : String}
    (ht : t.activity = .dispatch name) :
    (∃ cell, t.machine.find? name = some cell) ∧
      (t.machine.root.depth : Int) < t.machine.root.limits.callLimit := by
  have hrest : Reaches t u := reaches_of_ended hend hu h
  obtain ⟨activity, frames, n⟩ := t
  obtain rfl : activity = .dispatch name := ht
  -- a refused dispatch would fail the run
  have hgoes : ∀ fault, afterDispatch name frames n ≠ ⟨.finished (some fault), frames, n⟩ := by
    intro fault heq
    rcases Relation.ReflTransGen.cases_head hrest with rfl | ⟨t, hnext, ht⟩
    · cases hok
    · obtain rfl : afterDispatch name frames n = t := Option.some.inj hnext
      rw [heq] at ht
      obtain ⟨fault', hfailed⟩ := failed_of_reaches rfl ht
      rw [hok] at hfailed
      cases hfailed
  cases hfind : n.find? name with
  | none => exact absurd (by simp only [afterDispatch, hfind]) (hgoes (.undefinedSymbol name))
  | some cell =>
    refine ⟨⟨cell, rfl⟩, ?_⟩
    by_cases hfull : n.root.limits.callLimit ≤ n.root.depth
    · exact absurd (by simp only [afterDispatch, hfind, hfull, if_true])
        (hgoes n.root.limits.depthFault)
    · exact Int.not_le.mp hfull

/-- A program that is executed without a fault dispatches only names that are bound, below the
limit. -/
theorem dispatch_of_succeeded {program : List Instruction} {m : Machine}
    (hok : (m.execute program).fault? = none) {s : Moment}
    (h : Reaches ⟨.program program, [], m⟩ s) {name : String} (hs : s.activity = .dispatch name) :
    (∃ cell, s.machine.find? name = some cell) ∧
      (s.machine.root.depth : Int) < s.machine.root.limits.callLimit :=
  dispatch_of_ended (reaches_execute program [] m) rfl (congrArg Activity.finished hok) h hs

/-! ## The depth at each moment -/

/-- What a step does to the depth and to the frames of dispatches. -/
inductive Counted (s t : Moment) : Prop where
  | same (counters : t.machine.counters = s.machine.counters)
      (dispatches : t.dispatches = s.dispatches)
  | entered (activity : ∃ name, s.activity = .dispatch name)
      (less : (s.machine.root.depth : Int) < s.machine.root.limits.callLimit)
      (counters : t.machine.counters = s.machine.enter.counters)
      (dispatches : t.dispatches = s.dispatches + 1)
  | left (counters : t.machine.counters = s.machine.leave.counters)
      (dispatches : s.dispatches = t.dispatches + 1)

theorem counted_afterDispatch (name : String) (frames : List Frame) (m : Machine) :
    Counted ⟨.dispatch name, frames, m⟩ (afterDispatch name frames m) := by
  rw [afterDispatch]
  cases m.find? name with
  | none => exact .same rfl rfl
  | some cell =>
    by_cases hfull : m.root.limits.callLimit ≤ m.root.depth
    · simp only [hfull, if_true]
      exact .same rfl rfl
    · simp only [hfull, if_false]
      have hless : (m.root.depth : Int) < m.root.limits.callLimit := by omega
      exact .entered ⟨name, rfl⟩ hless rfl (List.countP_cons_of_pos rfl)

theorem counted_afterProcedure (body : Procedure) (frames : List Frame) (m : Machine) :
    Counted ⟨.procedure body, frames, m⟩ (afterProcedure body frames m) := by
  cases body with
  | pop next =>
    obtain ⟨stack, scope, root⟩ := m
    cases stack <;> exact .same rfl rfl
  | popBindings next =>
    rw [afterProcedure]
    generalize Machine.spanBindings [] m.stack = split
    obtain ⟨bindings, rest⟩ := split
    cases rest <;> exact .same rfl rfl
  | _ => exact .same rfl rfl

/-- The end of a dispatch leaves it, and the end of anything else goes on in the same dispatch. -/
theorem counted_afterEnd? {fault? : Option Fault} {frames : List Frame} {m : Machine} {t : Moment}
    (h : afterEnd? fault? frames m = some t) : Counted ⟨.finished fault?, frames, m⟩ t := by
  cases frames with
  | nil => cases h
  | cons frame frames =>
    cases frame with
    | dispatch wraps =>
      injection h with h
      subst h
      exact .left rfl (List.countP_cons_of_pos rfl)
    | _ =>
      cases fault? <;> injection h with h <;> subst h <;> exact .same rfl rfl

/-- Only a dispatch raises the depth, below the limit, and only its end lowers it. -/
theorem counted_of_next? {s t : Moment} (h : s.next? = some t) : Counted s t := by
  obtain ⟨activity, frames, m⟩ := s
  cases activity with
  | dispatch name =>
    injection h with h
    exact h ▸ counted_afterDispatch name frames m
  | procedure body =>
    injection h with h
    exact h ▸ counted_afterProcedure body frames m
  | finished fault? => exact counted_afterEnd? h
  | cell name cell =>
    injection h with h
    subst h
    cases cell <;> exact .same rfl rfl
  | value v =>
    injection h with h
    subst h
    cases v <;> exact .same rfl rfl
  | program instructions =>
    injection h with h
    subst h
    rcases instructions with _ | ⟨_ | _, rest⟩ <;> exact .same rfl rfl

/-- The depth is that of the start of the run and the dispatches in progress, and the limits are
those of the start. -/
structure Balanced (m : Machine) (s : Moment) : Prop where
  depth_eq : s.machine.root.depth = m.root.depth + s.dispatches
  limits_eq : s.machine.root.limits = m.root.limits

theorem Balanced.next {m : Machine} {s t : Moment} (hs : Balanced m s) (h : s.next? = some t) :
    Balanced m t := by
  obtain ⟨hdepth, hlimits⟩ := hs
  cases counted_of_next? h with
  | same hcounters hdispatches =>
    injection hcounters with hd hl
    exact ⟨by omega, hl.trans hlimits⟩
  | entered _ _ hcounters hdispatches =>
    injection hcounters with hd hl
    refine ⟨?_, hl.trans hlimits⟩
    rw [hd, Machine.depth_enter]
    omega
  | left hcounters hdispatches =>
    injection hcounters with hd hl
    refine ⟨?_, hl.trans hlimits⟩
    rw [hd, Machine.depth_leave]
    omega

/-- At each moment of a run the depth counts the dispatches in progress. -/
theorem balanced_of_reaches {activity : Activity} {m : Machine} {s : Moment}
    (h : Reaches ⟨activity, [], m⟩ s) : Balanced m s := by
  induction h with
  | refl => exact ⟨rfl, rfl⟩
  | tail _ hnext ih => exact ih.next hnext

/-- A step that raises the depth is a dispatch, and it stays within the limit. -/
theorem depth_le_of_raised {s t : Moment} (h : s.next? = some t)
    (hraised : s.machine.root.depth < t.machine.root.depth) :
    (∃ name, s.activity = .dispatch name) ∧
      (t.machine.root.depth : Int) ≤ s.machine.root.limits.maxDepth := by
  cases counted_of_next? h with
  | same hcounters _ =>
    injection hcounters with hd _
    omega
  | entered hactivity hless hcounters _ =>
    injection hcounters with hd _
    have hlimit := s.machine.root.limits.callLimit_le_maxDepth
    refine ⟨hactivity, ?_⟩
    rw [hd, Machine.depth_enter]
    omega
  | left hcounters _ =>
    injection hcounters with hd _
    rw [hd, Machine.depth_leave] at hraised
    omega

end Moment

end QuoteStack
