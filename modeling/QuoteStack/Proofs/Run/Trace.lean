import QuoteStack.Proofs.Run.Moment

/-!
The dispatches of a run. What a run does is the same whatever waits for its end, and everything that
a dispatch starts is deeper than the dispatch itself. So a run that starts at some depth has started
itself those dispatches that start at this depth, and the others are started inside of them. The main
statements are `traces_dispatch` and `Traces.unique`.
-/

namespace QuoteStack.Moment

/-! ## Frames below -/

/-- The moment with further frames that wait for the end of the run. -/
def onTopOf (s : Moment) (frames : List Frame) : Moment :=
  { s with frames := s.frames ++ frames }

theorem afterDispatch_onTopOf (name : String) (inner : List Frame) (m : Machine)
    (frames : List Frame) :
    (afterDispatch name inner m).onTopOf frames = afterDispatch name (inner ++ frames) m := by
  unfold afterDispatch
  split
  · rfl
  · split <;> rfl

theorem afterProcedure_onTopOf (body : Procedure) (inner : List Frame) (m : Machine)
    (frames : List Frame) :
    (afterProcedure body inner m).onTopOf frames = afterProcedure body (inner ++ frames) m := by
  cases body with
  | pop next =>
    obtain ⟨stack, scope, root⟩ := m
    cases stack <;> rfl
  | popBindings next =>
    rw [afterProcedure, afterProcedure]
    generalize Machine.spanBindings [] m.stack = split
    obtain ⟨bindings, rest⟩ := split
    cases rest <;> rfl
  | _ => rfl

/-- A step does not look at the frames that wait for the end of the run. -/
theorem next?_onTopOf {s t : Moment} (h : s.next? = some t) (frames : List Frame) :
    (s.onTopOf frames).next? = some (t.onTopOf frames) := by
  obtain ⟨activity, inner, m⟩ := s
  cases activity with
  | dispatch name =>
    injection h with h
    exact h ▸ congrArg some (afterDispatch_onTopOf name inner m frames).symm
  | procedure body =>
    injection h with h
    exact h ▸ congrArg some (afterProcedure_onTopOf body inner m frames).symm
  | finished fault? =>
    -- some frame of the run itself is left, to which the end is given
    cases inner with
    | nil => cases h
    | cons frame inner => cases frame <;> cases fault? <;> injection h with h <;> exact h ▸ rfl
  | cell name cell =>
    injection h with h
    cases cell <;> exact h ▸ rfl
  | value v =>
    injection h with h
    cases v <;> exact h ▸ rfl
  | program instructions =>
    injection h with h
    rcases instructions with _ | ⟨_ | _, rest⟩ <;> exact h ▸ rfl

theorem Reaches.onTopOf {s t : Moment} (h : Reaches s t) (frames : List Frame) :
    Reaches (s.onTopOf frames) (t.onTopOf frames) := by
  induction h with
  | refl => exact .refl _
  | tail _ hnext ih => exact ih.tail (next?_onTopOf hnext frames)

/-- A run has one end. -/
theorem eq_of_ended {s t u : Moment} (ht : Reaches s t) (hu : Reaches s u)
    (htend : t.next? = none) (huend : u.next? = none) : t = u := by
  rcases Relation.ReflTransGen.cases_head (reaches_of_ended hu huend ht) with heq | ⟨v, hnext, -⟩
  · exact heq
  · rw [htend] at hnext
    cases hnext

theorem ended_injective {frames : List Frame} {o o' : Outcome}
    (h : ended frames o = ended frames o') : o = o' := by
  obtain ⟨fault?, m⟩ := o
  obtain ⟨fault?', n⟩ := o'
  cases h
  rfl

/-! ## Traces -/

/-- The dispatch that starts next and the stack that it finds, if it starts at the given depth. -/
def call? (depth : Nat) (s : Moment) : Option (String × List Value) :=
  match s.activity with
  | .dispatch name =>
    if s.machine.root.depth = depth then some (name, s.machine.stack) else none
  | _ => none

/-- The run comes from the first moment to the second, and on the way it starts the given dispatches
at the given depth, each with the stack that it finds. -/
inductive Traces (depth : Nat) : Moment → List (String × List Value) → Moment → Prop where
  | refl (s : Moment) : Traces depth s [] s
  | step {s t u : Moment} {calls : List (String × List Value)} (next : s.next? = some t)
      (others : Traces depth t calls u) : Traces depth s ((s.call? depth).toList ++ calls) u

section
variable {depth : Nat} {s t u : Moment} {calls calls' : List (String × List Value)}

theorem Traces.quiet (hquiet : s.call? depth = none) (hnext : s.next? = some t)
    (h : Traces depth t calls u) : Traces depth s calls u := by
  have hstep := Traces.step hnext h
  rwa [hquiet] at hstep

theorem Traces.trans (h : Traces depth s calls t) (h' : Traces depth t calls' u) :
    Traces depth s (calls ++ calls') u := by
  induction h with
  | refl => exact h'
  | step next others ih =>
    rw [List.append_assoc]
    exact .step next (ih h')

theorem Traces.reaches (h : Traces depth s calls t) : Reaches s t := by
  induction h with
  | refl => exact .refl _
  | step next others ih => exact .step next ih

theorem call?_onTopOf (s : Moment) (frames : List Frame) :
    (s.onTopOf frames).call? depth = s.call? depth :=
  rfl

theorem Traces.onTopOf (h : Traces depth s calls t) (frames : List Frame) :
    Traces depth (s.onTopOf frames) calls (t.onTopOf frames) := by
  induction h with
  | refl => exact .refl _
  | @step s _ _ _ next others ih =>
    rw [← call?_onTopOf s frames]
    exact .step (next?_onTopOf next frames) ih

/-- A run to its end has one trace. -/
theorem Traces.unique (h : Traces depth s calls t) (h' : Traces depth s calls' t)
    (hend : t.next? = none) : calls = calls' := by
  induction h generalizing calls' with
  | refl =>
    cases h' with
    | refl => rfl
    | step next' others' =>
      rw [hend] at next'
      cases next'
  | step next others ih =>
    cases h' with
    | refl =>
      rw [hend] at next
      cases next
    | step next' others' =>
      obtain rfl := Option.some.inj (next.symm.trans next')
      rw [ih others' hend]

/-- Where no dispatch starts at the depth on the way, the trace is empty. -/
theorem traces_of_reaches (h : Reaches s t)
    (hquiet : ∀ u, Reaches s u → u.call? depth = none) : Traces depth s [] t := by
  induction h using Relation.ReflTransGen.head_induction_on with
  | refl => exact .refl _
  | head hnext _ ih =>
    exact .quiet (hquiet _ (.refl _)) hnext (ih fun u hu => hquiet u (.step hnext hu))

end

/-! ## Dispatches in a run -/

/-- What a cell holds comes to an end of its own. -/
theorem exists_reaches_cell (name : String) (cell : Cell) (m : Machine) :
    ∃ fault? n, Reaches ⟨.cell name cell, [], m⟩ ⟨.finished fault?, [], n⟩ := by
  cases cell with
  | program instructions =>
    exact ⟨_, _, .step rfl (reaches_program (dispatchesEnd _) instructions [] _ rfl)⟩
  | values items => exact ⟨_, _, .step rfl (.refl _)⟩
  | external body => exact ⟨_, _, .step rfl (reaches_run body [] _)⟩
  | foreign content => exact ⟨_, _, .step rfl (.refl _)⟩

/-- Where no dispatch is in progress above the depth, none starts at the depth below it. -/
theorem call?_of_reaches {activity : Activity} {m : Machine} {depth : Nat}
    (hdepth : depth < m.root.depth) {s : Moment} (h : Reaches ⟨activity, [], m⟩ s) :
    s.call? depth = none := by
  have hs : s.machine.root.depth ≠ depth := by
    have hbalanced := (balanced_of_reaches h).depth_eq
    omega
  unfold call?
  split
  · exact if_neg hs
  · rfl

/-- A dispatch starts nothing but itself at the depth that it is started at. -/
theorem traces_dispatch (name : String) (frames : List Frame) (m : Machine) :
    Traces m.root.depth ⟨.dispatch name, frames, m⟩ [(name, m.stack)]
      (ended frames (m.dispatch name)) := by
  have hcall : call? m.root.depth ⟨.dispatch name, [], m⟩ = some (name, m.stack) := if_pos rfl
  have hstart {s t : Moment} (hnext : afterDispatch name [] m = s)
      (h : Traces m.root.depth s [] t) :
      Traces m.root.depth ⟨.dispatch name, [], m⟩ [(name, m.stack)] t := by
    have hstep := Traces.step (s := ⟨.dispatch name, [], m⟩) (congrArg some hnext) h
    rwa [hcall] at hstep
  -- the dispatch comes to some end
  have hsome : ∃ fault? n, Traces m.root.depth ⟨.dispatch name, [], m⟩ [(name, m.stack)]
      ⟨.finished fault?, [], n⟩ := by
    cases hfind : m.find? name with
    | none => exact ⟨_, _, hstart (by rw [afterDispatch, hfind]) (.refl _)⟩
    | some cell =>
      by_cases hfull : m.root.limits.callLimit ≤ m.root.depth
      · refine ⟨some m.root.limits.depthFault, m, hstart ?_ (.refl _)⟩
        simp only [afterDispatch, hfind, hfull, if_true]
      · -- what the cell holds runs on top of the frame of the dispatch, one deeper
        obtain ⟨fault?, n, hcell⟩ := exists_reaches_cell name cell m.enter
        have htrace : Traces m.root.depth ⟨.cell name cell, [], m.enter⟩ []
            ⟨.finished fault?, [], n⟩ :=
          traces_of_reaches hcell fun u hu => call?_of_reaches (Nat.lt_succ_self _) hu
        have hleave := (htrace.onTopOf [.dispatch cell.wraps]).trans (.quiet rfl rfl (.refl _))
        refine ⟨_, _, hstart ?_ hleave⟩
        simp only [afterDispatch, hfind, hfull, if_false]
        rfl
  obtain ⟨fault?, n, htrace⟩ := hsome
  have hend : ended [] (m.dispatch name) = ⟨.finished fault?, [], n⟩ :=
    eq_of_ended (reaches_dispatch name [] m) htrace.reaches rfl rfl
  rw [← hend] at htrace
  exact htrace.onTopOf frames

/-! ## Runs below the limit -/

/-- No dispatch on the way is refused because of the depth. -/
def StaysBelow (s : Moment) : Prop :=
  ∀ t, Reaches s t → ∀ name, t.activity = .dispatch name →
    (t.machine.root.depth : Int) < t.machine.root.limits.callLimit

theorem StaysBelow.later {s t : Moment} (h : StaysBelow s) (ht : Reaches s t) : StaysBelow t :=
  fun u hu => h u (ht.trans hu)

theorem StaysBelow.of_onTopOf {s : Moment} {frames : List Frame}
    (h : StaysBelow (s.onTopOf frames)) : StaysBelow s :=
  fun t ht => h (t.onTopOf frames) (ht.onTopOf frames)

/-- A procedure that ends without a fault has stayed below the limit. -/
theorem staysBelow_of_run {body : Procedure} {m : Machine}
    (hok : (body.run Machine.dispatcher m).fault? = none) :
    StaysBelow ⟨.procedure body, [], m⟩ := by
  intro t ht name hname
  exact (dispatch_of_ended (reaches_run body [] m) rfl (congrArg Activity.finished hok) ht hname).2

end QuoteStack.Moment
