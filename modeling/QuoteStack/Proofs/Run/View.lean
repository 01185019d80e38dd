import QuoteStack.Proofs.Run.Depth
import QuoteStack.Proofs.Run.Native

/-!
What a run depends on. A program sees the stack and the bindings of its environment, what names are
bound to around it, and of the root the limits, the count of closures and the depth. States that are
alike in these go through the same operations, whatever else there is and whatever has been printed
and logged before.
-/

namespace QuoteStack.Machine

/-! ## States that runs do not tell apart -/

/-- A relation between states that runs do not tell apart: every operation keeps it, and states that
are related find the same cells and have the same counters. -/
structure Unobserved (R : Machine → Machine → Prop) : Prop extends Lockstep R where
  found_eq {m n : Machine} : R m n → ∀ name, m.find? name = n.find? name
  counters_eq {m n : Machine} : R m n → m.counters = n.counters
  enter {m n : Machine} : R m n → R m.enter n.enter
  leave {m n : Machine} : R m n → R m.leave n.leave

section
variable {R : Machine → Machine → Prop} {m n : Machine}

/-- With the same room, dispatches keep the relation. -/
theorem Unobserved.dispatchWithin (hR : Unobserved R) (room : Nat) (name : String) (m n : Machine)
    (h : R m n) :
    (dispatchWithin room name m).Matches R (fun _ => False) (dispatchWithin room name n) := by
  induction room generalizing name m n with
  | zero =>
    have hlimits : m.root.limits = n.root.limits := congrArg Prod.snd (hR.counters_eq h)
    simp only [Machine.dispatchWithin, hR.found_eq h, hlimits]
    cases n.find? name <;> exact .of_eq h
  | succ room ih =>
    have hfound := hR.found_eq h name
    cases hcell : n.find? name with
    | none =>
      rw [hcell] at hfound
      simp only [Machine.dispatchWithin, hcell, hfound]
      exact .of_eq h
    | some cell =>
      rw [hcell] at hfound
      rw [dispatchWithin_succ room hfound, dispatchWithin_succ room hcell]
      have hinvoke := hR.toLockstep.invoke (fun _ hlost => hlost) ih name cell (hR.enter h)
      exact hinvoke.mapMachine fun _ _ hleft => hR.leave hleft

/-- Executing a program keeps the relation, and ends with the same fault or none. -/
theorem Unobserved.execute (hR : Unobserved R) (h : R m n) (program : List Instruction) :
    (m.execute program).fault? = (n.execute program).fault? ∧
      R (m.execute program).machine (n.execute program).machine := by
  have hroom : m.room = n.room := room_eq_of_counters (hR.counters_eq h)
  have hmatch := hR.toLockstep.each (hR.dispatchWithin n.room) program h
  unfold Machine.execute
  rw [hroom]
  rcases hmatch with ⟨_, _, hlost⟩ | hmatch
  · exact hlost.elim
  · exact hmatch

end

/-! ## States that look alike -/

/-- The second state looks like the first one to a program; the journals are the given ones with the
same events on top. -/
structure Alike (before before' : List Event) (m n : Machine) : Prop where
  stack : n.stack = m.stack
  own : ∀ name, n.scope.own.find? name = m.scope.own.find? name
  found : ∀ name, n.find? name = m.find? name
  counters : n.counters = m.counters
  minted : n.root.minted = m.root.minted
  journal : ∃ events, m.root.journal = events ++ before ∧ n.root.journal = events ++ before'

namespace Alike

variable {before before' : List Event} {m n c d : Machine}

theorem depth_eq (h : Alike before before' m n) : n.root.depth = m.root.depth :=
  congrArg Prod.fst h.counters

theorem limits_eq (h : Alike before before' m n) : n.root.limits = m.root.limits :=
  congrArg Prod.snd h.counters

theorem restack (h : Alike before before' m n) (stack : List Value) :
    Alike before before' { m with stack } { n with stack } :=
  ⟨rfl, h.own, h.found, h.counters, h.minted, h.journal⟩

theorem set (h : Alike before before' m n) (name : String) (cell : Cell) :
    Alike before before' (m.set name cell) (n.set name cell) where
  stack := h.stack
  own other := by
    show (n.scope.own.set name cell).find? other = (m.scope.own.set name cell).find? other
    rw [Registers.find?_set, Registers.find?_set, h.own]
  found other := by rw [find?_set, find?_set, h.found]
  counters := h.counters
  minted := h.minted
  journal := h.journal

theorem emit (h : Alike before before' m n) (event : Event) :
    Alike before before' (m.emit event) (n.emit event) where
  stack := h.stack
  own := h.own
  found := h.found
  counters := h.counters
  minted := h.minted
  journal := by
    obtain ⟨events, hm, hn⟩ := h.journal
    exact ⟨event :: events, congrArg (event :: ·) hm, congrArg (event :: ·) hn⟩

theorem countName (h : Alike before before' m n) :
    Alike before before' m.countName n.countName :=
  ⟨h.stack, h.own, h.found, h.counters, congrArg (· + 1) h.minted, h.journal⟩

theorem child (h : Alike before before' m n) (bindings : List (String × Value)) :
    Alike before before' (m.child bindings) (n.child bindings) where
  stack := rfl
  own _ := rfl
  found name := by rw [find?_child, find?_child, h.found]
  counters := h.counters
  minted := h.minted
  journal := h.journal

theorem back (h : Alike before before' m n) (hc : Alike before before' c d) :
    Alike before before' { m with root := c.root } { n with root := d.root } :=
  ⟨h.stack, h.own, h.found, hc.counters, hc.minted, hc.journal⟩

theorem enter (h : Alike before before' m n) : Alike before before' m.enter n.enter where
  stack := h.stack
  own := h.own
  found := h.found
  counters := counters_enter_congr h.counters
  minted := h.minted
  journal := h.journal

theorem leave (h : Alike before before' m n) : Alike before before' m.leave n.leave where
  stack := h.stack
  own := h.own
  found := h.found
  counters := counters_leave_congr h.counters
  minted := h.minted
  journal := h.journal

end Alike

/-- No run tells states apart that are alike. -/
theorem unobserved_alike (before before' : List Event) : Unobserved (Alike before before') where
  stack_eq h := h.stack.symm
  depth_eq h := h.depth_eq.symm
  context_eq h := by rw [h.limits_eq]
  nextName_eq h := by rw [nextName, nextName, h.minted]
  restack stack h := h.restack stack
  set name cell h := h.set name cell
  emit event h := h.emit event
  countName h := h.countName
  child bindings h := h.child bindings
  back h hc := h.back hc
  found_eq h name := (h.found name).symm
  counters_eq h := h.counters.symm
  enter h := h.enter
  leave h := h.leave

/-- Executing a program does not tell states apart that are alike: it ends with the same fault or
none, and leaves states that are alike. -/
theorem execute_alike {before before' : List Event} {m n : Machine} (h : Alike before before' m n)
    (program : List Instruction) :
    (n.execute program).fault? = (m.execute program).fault? ∧
      Alike before before' (m.execute program).machine (n.execute program).machine := by
  obtain ⟨hfault, halike⟩ := (unobserved_alike before before').execute h program
  exact ⟨hfault.symm, halike⟩

end QuoteStack.Machine
