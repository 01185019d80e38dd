import QuoteStack.Proofs.Run.Lockstep

/-!
How deep dispatches are nested. A run leaves the count of dispatches in progress as it found it,
whatever it does and however it ends. So the room that is left for dispatches is at every point what
the state itself tells, and what a dispatch does can be said without a bound: the main statements
are `dispatch_of_unbound`, `dispatch_of_full` and `dispatch_of_room`.
-/

namespace QuoteStack.Machine

/-- What decides whether a name may be dispatched: the dispatches in progress, and the limits. -/
def counters (m : Machine) : Nat × Limits :=
  (m.root.depth, m.root.limits)

/-- Being one state, with the given counters. -/
def SameAt (c : Nat × Limits) (m n : Machine) : Prop :=
  m = n ∧ m.counters = c

/-- No single operation changes the counters. -/
theorem lockstep_sameAt (c : Nat × Limits) : Lockstep (SameAt c) where
  stack_eq h := by rw [h.1]
  depth_eq h := by rw [h.1]
  context_eq h := by rw [h.1]
  nextName_eq h := by rw [h.1]
  restack stack h := ⟨by rw [h.1], h.2⟩
  set name cell h := ⟨by rw [h.1], h.2⟩
  emit event h := ⟨by rw [h.1], h.2⟩
  countName h := ⟨by rw [h.1], h.2⟩
  child bindings h := ⟨by rw [h.1], h.2⟩
  back h hc := ⟨by rw [h.1, hc.1], hc.2⟩

section
variable {c : Nat × Limits} {o o' : Outcome}

/-- Nothing is given up, so matching outcomes are equal. -/
theorem eq_of_matches_sameAt (h : o.Matches (SameAt c) (fun _ => False) o') : o = o' := by
  rcases h with ⟨fault, -, hlost⟩ | ⟨hfault, hmachine, -⟩
  · exact hlost.elim
  · obtain ⟨fault?, m⟩ := o
    obtain ⟨fault?', n⟩ := o'
    simp only at hfault hmachine
    rw [hfault, hmachine]

/-- Nothing is given up, so matching outcomes have the counters of their start. -/
theorem counters_of_matches_sameAt (h : o.Matches (SameAt c) (fun _ => False) o') :
    o.machine.counters = c := by
  rcases h with ⟨fault, -, hlost⟩ | ⟨-, -, hcounters⟩
  · exact hlost.elim
  · exact hcounters

end

/-- Entering a dispatch changes equal counters alike. -/
theorem counters_enter_congr {m n : Machine} (h : m.counters = n.counters) :
    m.enter.counters = n.enter.counters :=
  congrArg (fun c : Nat × Limits => (c.1 + 1, c.2)) h

/-- Leaving a dispatch changes equal counters alike. -/
theorem counters_leave_congr {m n : Machine} (h : m.counters = n.counters) :
    m.leave.counters = n.leave.counters :=
  congrArg (fun c : Nat × Limits => (c.1 - 1, c.2)) h

/-- Leaving a dispatch undoes what entering it has counted. -/
theorem counters_leave_of_enter {m n : Machine} (h : n.counters = m.enter.counters) :
    n.leave.counters = m.counters := by
  have hdepth : n.root.depth = m.root.depth + 1 := congrArg Prod.fst h
  have hlimits : n.root.limits = m.root.limits := congrArg Prod.snd h
  simp only [counters, leave, hdepth, hlimits, Nat.add_sub_cancel]

theorem room_eq_of_counters {m n : Machine} (h : m.counters = n.counters) : m.room = n.room := by
  have hdepth : m.root.depth = n.root.depth := congrArg Prod.fst h
  have hlimits : m.root.limits = n.root.limits := congrArg Prod.snd h
  rw [room, room, hdepth, hlimits]

/-- However much room there is, a dispatch gives back the counters that it found. -/
theorem counters_dispatchWithin (room : Nat) (name : String) (m : Machine) :
    (dispatchWithin room name m).machine.counters = m.counters := by
  induction room generalizing name m with
  | zero =>
    rw [dispatchWithin]
    cases m.find? name <;> rfl
  | succ room ih =>
    cases hfind : m.find? name with
    | none => simp only [dispatchWithin, hfind]
    | some cell =>
      rw [dispatchWithin_succ room hfind]
      -- the run is matched with itself, which tells that it stays at the counters it starts with
      have hD : ∀ name a b, SameAt m.enter.counters a b →
          (dispatchWithin room name a).Matches (SameAt m.enter.counters) (fun _ => False)
            (dispatchWithin room name b) := by
        rintro name a b ⟨rfl, ha⟩
        exact .of_eq ⟨rfl, (ih name a).trans ha⟩
      have hinvoke := (lockstep_sameAt _).invoke (fun _ h => h) hD name cell
        (⟨rfl, rfl⟩ : SameAt m.enter.counters m.enter m.enter)
      exact counters_leave_of_enter (counters_of_matches_sameAt hinvoke)

/-- Dispatching a name in the state it is dispatched in, with the room of that state. -/
def dispatcher : Dispatch :=
  fun name m => m.dispatch name

/-- As long as the counters stay, it makes no difference whether the room is fixed at the start or
read off each state. -/
theorem matches_dispatchWithin {c : Nat × Limits} (room : Nat)
    (hroom : ∀ m : Machine, m.counters = c → m.room = room) (name : String) (a b : Machine)
    (hab : SameAt c a b) :
    (dispatchWithin room name a).Matches (SameAt c) (fun _ => False) (dispatcher name b) := by
  obtain ⟨rfl, ha⟩ := hab
  have hdispatch : dispatcher name a = dispatchWithin room name a := by
    rw [dispatcher, dispatch, hroom a ha]
  rw [hdispatch]
  exact .of_eq ⟨rfl, (counters_dispatchWithin room name a).trans ha⟩

/-! ## What a dispatch does -/

variable {name : String} {m : Machine} {cell : Cell}

/-- Looking a name up comes first: a name without a cell is a fault at any depth. -/
theorem dispatch_of_unbound (hfind : m.find? name = none) :
    m.dispatch name = ⟨some (.undefinedSymbol name), m⟩ := by
  rw [dispatch]
  cases m.room <;> simp only [dispatchWithin, hfind]

/-- At the limit nothing is invoked. -/
theorem dispatch_of_full (hfind : m.find? name = some cell)
    (hfull : m.root.limits.callLimit ≤ m.root.depth) :
    m.dispatch name = ⟨some m.root.limits.depthFault, m⟩ := by
  have hroom : m.room = 0 := by
    rw [room]
    omega
  simp only [dispatch, hroom, dispatchWithin, hfind]

/-- Below the limit the cell of the name is invoked, one dispatch deeper. -/
theorem dispatch_of_room (hfind : m.find? name = some cell)
    (hless : (m.root.depth : Int) < m.root.limits.callLimit) :
    m.dispatch name = (cell.invoke dispatcher name m.enter).mapMachine leave := by
  have hroom : m.room = m.enter.room + 1 := by
    simp only [room, enter]
    omega
  rw [dispatch, hroom, dispatchWithin_succ _ hfind]
  have hD := matches_dispatchWithin (c := m.enter.counters) m.enter.room
    fun _ h => room_eq_of_counters h
  have hinvoke := (lockstep_sameAt _).invoke (fun _ h => h) hD name cell ⟨rfl, rfl⟩
  rw [eq_of_matches_sameAt hinvoke]

/-- Induction over nested dispatches. What is said of a dispatch may be used of every dispatch inside
of it, that is, in every state with the counters of the one entered: there is less room in these. -/
@[elab_as_elim]
theorem dispatch_induction {motive : String → Machine → Prop}
    (unbound : ∀ name m, m.find? name = none → motive name m)
    (full : ∀ name m cell, m.find? name = some cell →
      m.root.limits.callLimit ≤ m.root.depth → motive name m)
    (nested : ∀ name m cell, m.find? name = some cell →
      (m.root.depth : Int) < m.root.limits.callLimit →
      (∀ inner n, n.counters = m.enter.counters → motive inner n) → motive name m)
    (name : String) (m : Machine) : motive name m := by
  induction hroom : m.room using Nat.strongRecOn generalizing name m with
  | _ left ih =>
    cases hfind : m.find? name with
    | none => exact unbound name m hfind
    | some cell =>
      by_cases hfull : m.root.limits.callLimit ≤ m.root.depth
      · exact full name m cell hfind hfull
      · have hless : (m.root.depth : Int) < m.root.limits.callLimit := by omega
        refine nested name m cell hfind hless fun inner n hn => ih n.room ?_ inner n rfl
        rw [← hroom, room_eq_of_counters hn]
        simp only [room, enter]
        omega

/-- A program is executed by dispatching its symbols where they are met. -/
theorem execute_eq (m : Machine) (program : List Instruction) :
    m.execute program = executeEach dispatcher program m := by
  have hD := matches_dispatchWithin (c := m.counters) m.room
    fun _ h => room_eq_of_counters h
  exact eq_of_matches_sameAt ((lockstep_sameAt _).each hD program ⟨rfl, rfl⟩)

/-! ## What stays -/

/-- A dispatch gives back the counters that it found. -/
theorem counters_dispatch (name : String) (m : Machine) :
    (m.dispatch name).machine.counters = m.counters :=
  counters_dispatchWithin m.room name m

theorem matches_dispatcher {c : Nat × Limits} (name : String) (a b : Machine) (h : SameAt c a b) :
    (dispatcher name a).Matches (SameAt c) (fun _ => False) (dispatcher name b) := by
  obtain ⟨rfl, ha⟩ := h
  exact .of_eq ⟨rfl, (counters_dispatch name a).trans ha⟩

theorem counters_value (v : Value) (m : Machine) :
    (v.execute dispatcher m).machine.counters = m.counters :=
  counters_of_matches_sameAt ((lockstep_sameAt _).value matches_dispatcher v ⟨rfl, rfl⟩)

theorem counters_run (body : Procedure) (m : Machine) :
    (body.run dispatcher m).machine.counters = m.counters :=
  counters_of_matches_sameAt ((lockstep_sameAt _).run matches_dispatcher body ⟨rfl, rfl⟩)

theorem counters_each (program : List Instruction) (m : Machine) :
    (executeEach dispatcher program m).machine.counters = m.counters :=
  counters_of_matches_sameAt ((lockstep_sameAt _).each matches_dispatcher program ⟨rfl, rfl⟩)

theorem counters_execute (m : Machine) (program : List Instruction) :
    (m.execute program).machine.counters = m.counters := by
  rw [execute_eq]
  exact counters_each program m

end QuoteStack.Machine
