import QuoteStack.Session

/-!
Invariants of sessions. A property that new trees have, and that every action keeps in the tree that
it works on, holds of all trees at all times of a session; and what every action's fault satisfies,
all faults that a session answers with satisfy. The main statement is `Session.Invariant.run`.
-/

namespace QuoteStack

/-- The state that an action finds: what is seen from the place, with nothing in the journal. -/
def Machine.fresh (m : Machine) : Machine :=
  { m with root := { m.root with journal := [] } }

/-- What a request does with an environment, if it does something with one. -/
def Request.action? : Request → Option Action
  | .atRoot action => some action
  | .at _ action => some action
  | .reset => none
  | .child _ _ => none
  | .standing _ => none

namespace Session

/-- Actions of a kind keep a property of trees and fail with faults of a kind only. -/
structure Invariant (limits : Limits) (cells : List (String × Cell)) (tree : Tree → Prop)
    (action : Action → Prop) (fault : Fault → Prop) : Prop where
  new : tree (.ofMachine (.ofCells limits cells))
  addChild : ∀ before place, tree before → tree (before.addChild place)
  update : ∀ before place m done, tree before → before.view? place = some m → action done →
    tree (before.update place (done.perform m.fresh).2)
  refused : ∀ reason, fault (.refused reason)
  failed : ∀ before place m done cause, tree before → before.view? place = some m → action done →
    (done.perform m.fresh).1 = .error cause → fault cause

/-- A session that makes its roots in one way, and whose trees all have a property. -/
structure Satisfies (limits : Limits) (cells : List (String × Cell)) (tree : Tree → Prop)
    (session : Session) : Prop where
  limits_eq : session.limits = limits
  cells_eq : session.cells = cells
  trees : ∀ member ∈ session.forest.trees, tree member

/-- Changing one member of an array keeps a property of all, if the changed member has it. -/
theorem forall_mem_modify {α : Type} {p : α → Prop} {members : Array α} (h : ∀ a ∈ members, p a)
    (place : Nat) (f : α → α) (hf : ∀ a, members[place]? = some a → p (f a)) :
    ∀ a ∈ members.modify place f, p a := by
  intro a ha
  obtain ⟨i, hi, rfl⟩ := Array.mem_iff_getElem.mp ha
  simp only [Array.size_modify] at hi
  simp only [Array.getElem_modify]
  split
  · next heq =>
    subst heq
    exact hf _ (Array.getElem?_eq_getElem hi)
  · exact h _ (Array.getElem_mem _)

namespace Invariant

variable {limits : Limits} {cells : List (String × Cell)} {tree : Tree → Prop}
  {action : Action → Prop} {fault : Fault → Prop} {session : Session}

theorem performAt (hinv : Invariant limits cells tree action fault)
    (h : session.Satisfies limits cells tree) (place : Place) {done : Action} (hdone : action done) :
    (session.performAt place done).2.Satisfies limits cells tree ∧
      ∀ cause, (session.performAt place done).1.result = .error cause → fault cause := by
  rw [Session.performAt]
  cases hview : session.forest.view? place with
  | none =>
    refine ⟨h, fun cause hcause => ?_⟩
    rw [← Except.error.inj hcause]
    exact hinv.refused _
  | some m =>
    obtain ⟨before, hbefore, hview⟩ := Option.bind_eq_some_iff.mp hview
    have hmem := h.trees before (Array.mem_of_getElem? hbefore)
    have hupdate : ∀ t, session.forest.trees[place.tree]? = some t →
        tree (t.update place.environment (done.perform m.fresh).2) := by
      intro t ht
      obtain rfl := Option.some.inj (hbefore.symm.trans ht)
      exact hinv.update before place.environment m done hmem hview hdone
    exact ⟨⟨h.limits_eq, h.cells_eq, forall_mem_modify h.trees place.tree _ hupdate⟩,
      fun cause => hinv.failed before place.environment m done cause hmem hview hdone⟩

theorem step (hinv : Invariant limits cells tree action fault)
    (h : session.Satisfies limits cells tree) (request : Request)
    (hrequest : ∀ done, request.action? = some done → action done) :
    (session.step request).2.Satisfies limits cells tree ∧
      ∀ cause, (session.step request).1.result = .error cause → fault cause := by
  have hunknown : ∀ environment cause, (unknown environment).result = .error cause → fault cause := by
    intro environment cause hcause
    rw [← Except.error.inj hcause]
    exact hinv.refused _
  cases request with
  | atRoot done => exact hinv.performAt h _ (hrequest done rfl)
  | reset =>
    refine ⟨⟨h.limits_eq, h.cells_eq, fun t ht => ?_⟩, fun cause hcause => nomatch hcause⟩
    -- a reset adds a tree, and leaves those there were
    rcases Array.mem_push.mp ht with ht | rfl
    · exact h.trees t ht
    · rw [h.limits_eq, h.cells_eq]
      exact hinv.new
  | «at» environment done =>
    rw [Session.step]
    cases session.names.lookup environment with
    | none => exact ⟨h, hunknown _⟩
    | some place => exact hinv.performAt h place (hrequest done rfl)
  | child environment name =>
    rw [Session.step]
    cases session.names.lookup environment with
    | none => exact ⟨h, hunknown _⟩
    | some place =>
      have hadd : ∀ t, session.forest.trees[place.tree]? = some t →
          tree (t.addChild place.environment) := fun t ht =>
        hinv.addChild t place.environment (h.trees t (Array.mem_of_getElem? ht))
      exact ⟨⟨h.limits_eq, h.cells_eq, forall_mem_modify h.trees place.tree _ hadd⟩,
        fun cause hcause => nomatch hcause⟩
  | standing environment =>
    rw [Session.step]
    cases session.names.lookup environment >>= session.standingAt? with
    | none => exact ⟨h, hunknown _⟩
    | some standing => exact ⟨h, fun cause hcause => nomatch hcause⟩

theorem run (hinv : Invariant limits cells tree action fault)
    (h : session.Satisfies limits cells tree) (requests : List Request)
    (hrequests : ∀ request ∈ requests, ∀ done, request.action? = some done → action done) :
    (session.run requests).2.Satisfies limits cells tree ∧
      ∀ answer ∈ (session.run requests).1, ∀ cause, answer.result = .error cause → fault cause := by
  induction requests generalizing session with
  | nil => exact ⟨h, fun answer hanswer => absurd hanswer List.not_mem_nil⟩
  | cons request rest ih =>
    obtain ⟨hsession, hfault⟩ := hinv.step h request (hrequests request List.mem_cons_self)
    obtain ⟨hlast, hfaults⟩ := ih hsession fun r hr => hrequests r (List.mem_cons_of_mem _ hr)
    refine ⟨hlast, fun answer hanswer => ?_⟩
    rcases List.mem_cons.mp hanswer with rfl | hanswer
    · exact hfault
    · exact hfaults answer hanswer

/-- A new session has one tree, a new root environment. -/
theorem satisfies_new (hinv : Invariant limits cells tree action fault) :
    (Session.new limits cells).Satisfies limits cells tree := by
  refine ⟨rfl, rfl, fun t ht => ?_⟩
  obtain rfl := Array.mem_singleton.mp ht
  exact hinv.new

end Invariant

end Session

end QuoteStack
