import QuoteStack.Forest
import QuoteStack.Proofs.Run.View

/-!
The environments of a root as a store. What runs in one of them changes the stack and the registers
at its place, opens children at new places, and counts at the shared root; names are looked up in
the store from the place outwards. `Tree.Shows` says what is seen from a place, and `Tree.Extends`
what stays as it is whatever runs there.
-/

namespace QuoteStack

namespace Tree

/-! ## Operations at a place -/

/-- The values on the stack at a place, top first. -/
def stackAt (tree : Tree) (place : Nat) : List Value :=
  ((tree.environments[place]?).map Environment.stack).getD []

/-- The cell that a name is bound to in the first of some places that binds it. -/
def findAmong? (tree : Tree) (places : List Nat) (name : String) : Option Cell :=
  places.findSome? fun place =>
    tree.environments[place]? >>= fun environment => environment.registers.find? name

/-- The cell that a name is bound to at a place or in the nearest environment around it. -/
def findAt? (tree : Tree) (place : Nat) (name : String) : Option Cell :=
  tree.environments[place]? >>= fun environment =>
    (environment.registers.find? name).or (tree.findAmong? environment.ancestors name)

/-- Changes the environment at a place. -/
def modifyAt (tree : Tree) (place : Nat) (f : Environment → Environment) : Tree :=
  { tree with environments := tree.environments.modify place f }

/-- Replaces the stack at a place. -/
def restackAt (tree : Tree) (place : Nat) (stack : List Value) : Tree :=
  tree.modifyAt place fun environment => { environment with stack }

/-- Puts a value on the stack at a place. -/
def pushAt (tree : Tree) (place : Nat) (v : Value) : Tree :=
  tree.restackAt place (v :: tree.stackAt place)

/-- Binds a name at a place. -/
def bindAt (tree : Tree) (place : Nat) (name : String) (cell : Cell) : Tree :=
  tree.modifyAt place fun environment =>
    { environment with registers := environment.registers.set name cell }

/-- Opens a child of the environment at a place, and binds names in it, the last one first. -/
def openAt (tree : Tree) (place : Nat) (bindings : List (String × Value)) : Tree :=
  bindings.foldr (fun (name, v) opened => opened.bindAt tree.environments.size name (.values [v]))
    (tree.addChild place)

/-- Changes the root. -/
def onRoot (tree : Tree) (f : Root → Root) : Tree :=
  { tree with root := f tree.root }

/-- Writes to the journal of the root. -/
def emit (tree : Tree) (event : Event) : Tree :=
  tree.onRoot fun root => { root with journal := event :: root.journal }

/-- How many dispatches more may be nested. -/
def room (tree : Tree) : Nat :=
  (tree.root.limits.callLimit - tree.root.depth).toNat

/-! ## What is seen, and what is kept -/

/-- Every environment comes after those around it. -/
def IsOrdered (tree : Tree) : Prop :=
  ∀ (place : Nat) (environment : Environment), tree.environments[place]? = some environment →
    ∀ ancestor ∈ environment.ancestors, ancestor < place

/-- What runs at the place sees the state of the machine. -/
structure Shows (tree : Tree) (place : Nat) (m : Machine) : Prop where
  environment : ∃ environment, tree.environments[place]? = some environment ∧
    environment.stack = m.stack ∧ environment.registers = m.scope.own
  found : ∀ name, tree.findAt? place name = m.find? name
  root : tree.root = m.root

/-- The second tree has all environments of the first one, changed at one place at most, and there
only in stack and registers. -/
structure Extends (place : Nat) (before after : Tree) : Prop where
  size_le : before.environments.size ≤ after.environments.size
  others : ∀ other, other < before.environments.size → other ≠ place →
    after.environments[other]? = before.environments[other]?
  ancestors : (after.environments[place]?).map Environment.ancestors =
    (before.environments[place]?).map Environment.ancestors
  ordered : before.IsOrdered → after.IsOrdered

section
variable {tree tree' : Tree} {place : Nat} {m : Machine}

theorem getElem?_modifyAt (tree : Tree) (place : Nat) (f : Environment → Environment)
    (other : Nat) :
    (tree.modifyAt place f).environments[other]? =
      if place = other then (tree.environments[other]?).map f else tree.environments[other]? :=
  Array.getElem?_modify

theorem findAt?_eq {environment : Environment} (h : tree.environments[place]? = some environment)
    (name : String) :
    tree.findAt? place name =
      (environment.registers.find? name).or (tree.findAmong? environment.ancestors name) := by
  rw [findAt?, h]
  rfl

/-- What is found among places depends on the registers there only. -/
theorem findAmong?_congr {places : List Nat}
    (h : ∀ other ∈ places, (tree'.environments[other]?).map Environment.registers =
      (tree.environments[other]?).map Environment.registers) (name : String) :
    tree'.findAmong? places name = tree.findAmong? places name := by
  induction places with
  | nil => rfl
  | cons other rest ih =>
    have hrest := ih fun o ho => h o (List.mem_cons_of_mem _ ho)
    have hother := h other List.mem_cons_self
    simp only [findAmong?, List.findSome?_cons] at hrest ⊢
    rw [hrest]
    cases hbefore : tree.environments[other]? with
    | none =>
      rw [hbefore] at hother
      rw [Option.map_eq_none_iff.mp hother]
    | some environment =>
      rw [hbefore] at hother
      obtain ⟨after, hafter, hregisters⟩ := Option.map_eq_some_iff.mp hother
      rw [hafter]
      simp only [Option.bind_eq_bind, Option.bind_some, hregisters]

theorem findAmong?_cons {other : Nat} {environment : Environment}
    (h : tree.environments[other]? = some environment) (rest : List Nat) (name : String) :
    tree.findAmong? (other :: rest) name =
      (environment.registers.find? name).or (tree.findAmong? rest name) := by
  rw [findAmong?, List.findSome?_cons, h]
  simp only [Option.bind_eq_bind, Option.bind_some]
  cases environment.registers.find? name <;> rfl

/-- Changing the last of some environments leaves the others. -/
theorem modify_push (environments : Array Environment) (last : Environment)
    (f : Environment → Environment) :
    (environments.push last).modify environments.size f = environments.push (f last) := by
  ext i hi hi'
  · simp only [Array.size_modify, Array.size_push]
  · simp only [Array.size_push] at hi'
    simp only [Array.getElem_modify, Array.getElem_push]
    by_cases h : i < environments.size
    · have hne : environments.size ≠ i := Nat.ne_of_gt h
      simp only [h, hne, dif_pos, if_false]
    · obtain rfl : environments.size = i := by omega
      simp only [h, dif_neg, not_false_eq_true, if_true]

/-- A new child is the last environment. -/
theorem openAt_eq {environment : Environment} (h : tree.environments[place]? = some environment)
    (bindings : List (String × Value)) :
    tree.openAt place bindings =
      { tree with
        environments := tree.environments.push
          ⟨[], ⟨bindings.map fun (name, v) => (name, .values [v])⟩,
            place :: environment.ancestors⟩ } := by
  induction bindings with
  | nil =>
    rw [openAt, List.foldr_nil, addChild, h]
    rfl
  | cons binding rest ih =>
    obtain ⟨name, v⟩ := binding
    show (tree.openAt place rest).bindAt tree.environments.size name (.values [v]) = _
    rw [ih, bindAt, modifyAt, modify_push]
    rfl

theorem getElem?_openAt_of_lt {environment : Environment}
    (h : tree.environments[place]? = some environment) (bindings : List (String × Value))
    {other : Nat} (hother : other < tree.environments.size) :
    (tree.openAt place bindings).environments[other]? = tree.environments[other]? := by
  rw [openAt_eq h]
  exact (Array.getElem?_push_lt hother).trans (Array.getElem?_eq_getElem hother).symm

theorem getElem?_openAt_size {environment : Environment}
    (h : tree.environments[place]? = some environment) (bindings : List (String × Value)) :
    (tree.openAt place bindings).environments[tree.environments.size]? =
      some ⟨[], ⟨bindings.map fun (name, v) => (name, .values [v])⟩,
        place :: environment.ancestors⟩ := by
  rw [openAt_eq h]
  exact Array.getElem?_push_size

theorem size_openAt {environment : Environment} (h : tree.environments[place]? = some environment)
    (bindings : List (String × Value)) :
    (tree.openAt place bindings).environments.size = tree.environments.size + 1 := by
  rw [openAt_eq h]
  exact Array.size_push _

theorem IsOrdered.onRoot (hordered : tree.IsOrdered) (f : Root → Root) :
    (tree.onRoot f).IsOrdered :=
  hordered

/-- A new child comes after its parent, and so after the environments around that. -/
theorem IsOrdered.openAt (hordered : tree.IsOrdered) {environment : Environment}
    (h : tree.environments[place]? = some environment) (bindings : List (String × Value)) :
    (tree.openAt place bindings).IsOrdered := by
  have hplace : place < tree.environments.size := (Array.getElem?_eq_some_iff.mp h).1
  intro other found hfound ancestor hancestor
  have hsize := (Array.getElem?_eq_some_iff.mp hfound).1
  rw [size_openAt h] at hsize
  rcases Nat.lt_or_eq_of_le (Nat.le_of_lt_succ hsize) with hother | rfl
  · rw [getElem?_openAt_of_lt h bindings hother] at hfound
    exact hordered other found hfound ancestor hancestor
  · rw [getElem?_openAt_size h] at hfound
    obtain rfl := Option.some.inj hfound
    rcases List.mem_cons.mp hancestor with rfl | hancestor
    · exact hplace
    · exact Nat.lt_trans (hordered place environment h ancestor hancestor) hplace

end

/-! ## What is kept -/

namespace Extends

variable {place : Nat} {before middle after : Tree}

theorem refl (place : Nat) (tree : Tree) : Extends place tree tree :=
  ⟨Nat.le_refl _, fun _ _ _ => rfl, rfl, id⟩

theorem trans (h : Extends place before middle) (h' : Extends place middle after) :
    Extends place before after where
  size_le := Nat.le_trans h.size_le h'.size_le
  others other hother hne :=
    (h'.others other (Nat.lt_of_lt_of_le hother h.size_le) hne).trans (h.others other hother hne)
  ancestors := h'.ancestors.trans h.ancestors
  ordered hordered := h'.ordered (h.ordered hordered)

theorem modifyAt (tree : Tree) (place : Nat) {f : Environment → Environment}
    (hf : ∀ environment, (f environment).ancestors = environment.ancestors) :
    Extends place tree (tree.modifyAt place f) where
  size_le := Nat.le_of_eq Array.size_modify.symm
  others other _ hne := by rw [getElem?_modifyAt, if_neg hne.symm]
  ancestors := by
    rw [getElem?_modifyAt, if_pos rfl, Option.map_map]
    exact congrArg (fun g => (tree.environments[place]?).map g) (funext hf)
  ordered hordered other environment hother ancestor hancestor := by
    rw [getElem?_modifyAt] at hother
    split at hother
    · obtain ⟨changed, hchanged, rfl⟩ := Option.map_eq_some_iff.mp hother
      rw [hf] at hancestor
      exact hordered other changed hchanged ancestor hancestor
    · exact hordered other environment hother ancestor hancestor

theorem restackAt (tree : Tree) (place : Nat) (stack : List Value) :
    Extends place tree (tree.restackAt place stack) :=
  modifyAt tree place fun _ => rfl

theorem bindAt (tree : Tree) (place : Nat) (name : String) (cell : Cell) :
    Extends place tree (tree.bindAt place name cell) :=
  modifyAt tree place fun _ => rfl

theorem onRoot (tree : Tree) (place : Nat) (f : Root → Root) :
    Extends place tree (tree.onRoot f) :=
  ⟨Nat.le_refl _, fun _ _ _ => rfl, rfl, id⟩

/-- What runs in a new child changes no environment that was there before. -/
theorem eq_before_child {environment : Environment} {bindings : List (String × Value)}
    (hplace : before.environments[place]? = some environment)
    (h : Extends before.environments.size (before.openAt place bindings) after) {other : Nat}
    (hother : other < before.environments.size) :
    after.environments[other]? = before.environments[other]? := by
  have hsize := size_openAt hplace bindings
  have hkept := h.others other (by omega) (Nat.ne_of_lt hother)
  exact hkept.trans (getElem?_openAt_of_lt hplace bindings hother)

theorem of_child {environment : Environment} {bindings : List (String × Value)}
    (hplace : before.environments[place]? = some environment)
    (h : Extends before.environments.size (before.openAt place bindings) after) :
    Extends place before after where
  size_le := by
    have hsize := size_openAt hplace bindings
    have hle := h.size_le
    omega
  others other hother _ := h.eq_before_child hplace hother
  ancestors := by rw [h.eq_before_child hplace (Array.getElem?_eq_some_iff.mp hplace).1]
  ordered hordered := h.ordered (hordered.openAt hplace bindings)

end Extends

/-! ## What is seen -/

namespace Shows

variable {tree : Tree} {place : Nat} {m : Machine}

theorem stackAt_eq (h : tree.Shows place m) : tree.stackAt place = m.stack := by
  obtain ⟨environment, hplace, hstack, -⟩ := h.environment
  rw [stackAt, hplace]
  exact hstack

theorem lt_size (h : tree.Shows place m) : place < tree.environments.size := by
  obtain ⟨environment, hplace, -⟩ := h.environment
  exact (Array.getElem?_eq_some_iff.mp hplace).1

theorem restack (h : tree.Shows place m) (stack : List Value) :
    (tree.restackAt place stack).Shows place { m with stack } := by
  obtain ⟨environment, hplace, -, hregisters⟩ := h.environment
  have hafter : (tree.restackAt place stack).environments[place]? =
      some { environment with stack } := by
    rw [restackAt, getElem?_modifyAt, if_pos rfl, hplace]
    rfl
  refine ⟨⟨_, hafter, rfl, hregisters⟩, fun name => ?_, h.root⟩
  rw [findAt?_eq hafter, findAmong?_congr, ← findAt?_eq hplace]
  · exact h.found name
  · intro other _
    rw [restackAt, getElem?_modifyAt]
    split
    · rw [Option.map_map]
      rfl
    · rfl

theorem push (h : tree.Shows place m) (v : Value) : (tree.pushAt place v).Shows place (m.push v) := by
  rw [pushAt, h.stackAt_eq]
  exact h.restack _

/-- A name that is bound at the place hides only what the environments around bind it to. -/
theorem bind (h : tree.Shows place m) (hordered : tree.IsOrdered) (name : String) (cell : Cell) :
    (tree.bindAt place name cell).Shows place (m.set name cell) := by
  obtain ⟨environment, hplace, hstack, hregisters⟩ := h.environment
  have hafter : (tree.bindAt place name cell).environments[place]? =
      some { environment with registers := environment.registers.set name cell } := by
    rw [bindAt, getElem?_modifyAt, if_pos rfl, hplace]
    rfl
  refine ⟨⟨_, hafter, hstack, congrArg (·.set name cell) hregisters⟩, fun other => ?_, h.root⟩
  have haround : (tree.bindAt place name cell).findAmong? environment.ancestors other =
      tree.findAmong? environment.ancestors other := by
    refine findAmong?_congr (fun ancestor hancestor => ?_) other
    have hne : place ≠ ancestor := Nat.ne_of_gt (hordered place environment hplace ancestor hancestor)
    rw [bindAt, getElem?_modifyAt, if_neg hne]
  rw [findAt?_eq hafter, haround, Machine.find?_set, ← h.found, findAt?_eq hplace,
    Registers.find?_set]
  split <;> rfl

theorem onRoot (h : tree.Shows place m) (f : Root → Root) :
    (tree.onRoot f).Shows place { m with root := f m.root } :=
  ⟨h.environment, h.found, congrArg f h.root⟩

theorem emit (h : tree.Shows place m) (event : Event) :
    (tree.emit event).Shows place (m.emit event) :=
  h.onRoot _

/-- What runs in a new child sees its bindings before those at the place. -/
theorem opened (h : tree.Shows place m) (hordered : tree.IsOrdered)
    (bindings : List (String × Value)) :
    (tree.openAt place bindings).Shows tree.environments.size (m.child bindings) := by
  obtain ⟨environment, hplace, -, -⟩ := h.environment
  have hchild := getElem?_openAt_size hplace bindings
  refine ⟨⟨_, hchild, rfl, rfl⟩, fun name => ?_, ?_⟩
  · have haround : (tree.openAt place bindings).findAmong? environment.ancestors name =
        tree.findAmong? environment.ancestors name := by
      refine findAmong?_congr (fun ancestor hancestor => ?_) name
      have hlt := hordered place environment hplace ancestor hancestor
      rw [getElem?_openAt_of_lt hplace bindings (Nat.lt_trans hlt h.lt_size)]
    have hparent := getElem?_openAt_of_lt hplace bindings h.lt_size
    rw [findAt?_eq hchild, findAmong?_cons (hparent.trans hplace), haround, ← findAt?_eq hplace,
      h.found]
    exact (Scope.find?_enter m.scope _ name).symm
  · rw [openAt_eq hplace]
    exact h.root

/-- Leaving a child, only the root stays as the child has left it. -/
theorem back (h : tree.Shows place m) (hordered : tree.IsOrdered)
    {bindings : List (String × Value)} {after : Tree} {c : Machine}
    (hkept : Extends tree.environments.size (tree.openAt place bindings) after)
    (hroot : after.root = c.root) : after.Shows place { m with root := c.root } := by
  obtain ⟨environment, hplace, hstack, hregisters⟩ := h.environment
  have hafter := (hkept.eq_before_child hplace h.lt_size).trans hplace
  refine ⟨⟨environment, hafter, hstack, hregisters⟩, fun name => ?_, hroot⟩
  rw [findAt?_eq hafter, findAmong?_congr, ← findAt?_eq hplace]
  · exact h.found name
  · intro ancestor hancestor
    have hlt := hordered place environment hplace ancestor hancestor
    rw [hkept.eq_before_child hplace (Nat.lt_trans hlt h.lt_size)]

end Shows

end Tree

end QuoteStack
