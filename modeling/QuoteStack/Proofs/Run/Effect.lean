import QuoteStack.Proofs.Run.Moment
import QuoteStack.Proofs.Run.Native

/-!
What a step of a run does to environments. Most steps leave all bindings as they are; one makes up a
name, one binds a name in the current environment, one opens a child, and one goes back to the
environment around it. The main statement is `Moment.affects_of_next?`.
-/

namespace QuoteStack

/-- What a step does to environments. -/
inductive Effect where
  /-- Nothing but a change of a stack, or of the depth or the journal of the root. -/
  | nothing
  /-- Makes up a name. -/
  | mint
  | bind (name : String) (cell : Cell)
  /-- Opens a child with some names bound to values. -/
  | enter (bindings : List (String × Value))
  /-- Goes back from a child to the environment around it. -/
  | leave

/-- The stack and the scope of an environment that waits for a child. -/
def Frame.around? : Frame → Option (List Value × Scope)
  | .parent stack scope _ => some (stack, scope)
  | _ => none

namespace Moment

/-- The stacks and scopes of the environments that wait for children, the innermost first. -/
def around (s : Moment) : List (List Value × Scope) :=
  s.frames.filterMap Frame.around?

/-- What the next step does to environments. -/
def effect (s : Moment) : Effect :=
  match s.activity, s.frames with
  | .procedure (.mint _), _ => .mint
  | .procedure (.register name cell _), _ => .bind name cell
  | .procedure (.inChild bindings _ _), _ => .enter bindings
  | .finished _, .parent _ _ _ :: _ => .leave
  | _, _ => .nothing

/-- What is known of a step of which the effect is known. -/
inductive Affects (s t : Moment) : Effect → Prop where
  | nothing (scope : t.machine.scope = s.machine.scope)
      (minted : t.machine.root.minted = s.machine.root.minted) (around : t.around = s.around) :
      Affects s t .nothing
  | mint {next : String → Procedure} (activity : s.activity = .procedure (.mint next))
      (after : t = ⟨.procedure (next s.machine.nextName), s.frames, s.machine.countName⟩) :
      Affects s t .mint
  | bind {name : String} {cell : Cell} {next : Procedure}
      (activity : s.activity = .procedure (.register name cell next))
      (after : t = ⟨.procedure next, s.frames, s.machine.set name cell⟩) :
      Affects s t (.bind name cell)
  | enter {bindings : List (String × Value)} {body : Procedure} {next : List Value → Procedure}
      (activity : s.activity = .procedure (.inChild bindings body next))
      (after : t = ⟨.procedure body, .parent s.machine.stack s.machine.scope next :: s.frames,
        s.machine.child bindings⟩) :
      Affects s t (.enter bindings)
  | leave {stack : List Value} {scope : Scope} (around : s.around = (stack, scope) :: t.around)
      (after : t.machine = ⟨stack, scope, s.machine.root⟩) :
      Affects s t .leave

variable {frames : List Frame} {m : Machine}

theorem affects_afterDispatch (name : String) (frames : List Frame) (m : Machine) :
    Affects ⟨.dispatch name, frames, m⟩ (afterDispatch name frames m) .nothing := by
  unfold afterDispatch
  split
  · exact .nothing rfl rfl rfl
  · split
    · exact .nothing rfl rfl rfl
    · exact .nothing rfl rfl rfl

theorem affects_afterProcedure (body : Procedure) (frames : List Frame) (m : Machine) :
    Affects ⟨.procedure body, frames, m⟩ (afterProcedure body frames m)
      (effect ⟨.procedure body, frames, m⟩) := by
  cases body with
  | mint next => exact .mint rfl rfl
  | register name cell next => exact .bind rfl rfl
  | inChild bindings body next => exact .enter rfl rfl
  | pop next =>
    obtain ⟨stack, scope, root⟩ := m
    cases stack <;> exact .nothing rfl rfl rfl
  | popBindings next =>
    rw [afterProcedure]
    generalize Machine.spanBindings [] m.stack = split
    obtain ⟨bindings, rest⟩ := split
    cases rest <;> exact .nothing rfl rfl rfl
  | _ => exact .nothing rfl rfl rfl

/-- The end of what runs in a child leaves the child, with a fault or without. -/
theorem affects_afterEnd? {fault? : Option Fault} {t : Moment}
    (h : afterEnd? fault? frames m = some t) :
    Affects ⟨.finished fault?, frames, m⟩ t (effect ⟨.finished fault?, frames, m⟩) := by
  cases frames with
  | nil => cases h
  | cons frame frames =>
    cases frame with
    | dispatch wraps =>
      obtain rfl := Option.some.inj h
      exact .nothing rfl rfl rfl
    | parent stack scope next =>
      cases fault? <;> obtain rfl := Option.some.inj h <;> exact .leave rfl rfl
    | _ => cases fault? <;> obtain rfl := Option.some.inj h <;> exact .nothing rfl rfl rfl

theorem affects_of_next? {s t : Moment} (h : s.next? = some t) : Affects s t s.effect := by
  obtain ⟨activity, frames, m⟩ := s
  cases activity with
  | dispatch name => exact Option.some.inj h ▸ affects_afterDispatch name frames m
  | procedure body => exact Option.some.inj h ▸ affects_afterProcedure body frames m
  | finished fault? => exact affects_afterEnd? h
  | cell name cell =>
    obtain rfl := Option.some.inj h
    cases cell <;> exact .nothing rfl rfl rfl
  | value v =>
    obtain rfl := Option.some.inj h
    cases v <;> exact .nothing rfl rfl rfl
  | program instructions =>
    obtain rfl := Option.some.inj h
    rcases instructions with _ | ⟨_ | _, rest⟩ <;> exact .nothing rfl rfl rfl

theorem exists_of_effect_mint {s : Moment} (h : s.effect = .mint) :
    ∃ next, s.activity = .procedure (.mint next) := by
  unfold effect at h
  split at h
  · exact ⟨_, by assumption⟩
  all_goals cases h

theorem exists_of_effect_bind {s : Moment} {name : String} {cell : Cell}
    (h : s.effect = .bind name cell) :
    ∃ next, s.activity = .procedure (.register name cell next) := by
  unfold effect at h
  split at h
  · cases h
  · next rest hactivity =>
    obtain ⟨rfl, rfl⟩ := Effect.bind.inj h
    exact ⟨rest, hactivity⟩
  all_goals cases h

/-- No step takes a name back that has been made up. -/
theorem minted_le_of_next? {s t : Moment} (h : s.next? = some t) :
    s.machine.root.minted ≤ t.machine.root.minted := by
  have haffects := affects_of_next? h
  generalize s.effect = e at haffects
  cases haffects with
  | nothing _ hminted => exact Nat.le_of_eq hminted.symm
  | mint _ hafter => exact hafter ▸ Nat.le_succ _
  | bind _ hafter => exact hafter ▸ Nat.le_refl _
  | enter _ hafter => exact hafter ▸ Nat.le_refl _
  | leave _ hafter => exact hafter ▸ Nat.le_refl _

end Moment

end QuoteStack
