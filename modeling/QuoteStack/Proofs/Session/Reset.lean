import QuoteStack.Proofs.Run.Cells
import QuoteStack.Proofs.Session.Invariant
import QuoteStack.Proofs.Session.Mirror

/-!
Resetting a session. A new root environment and what is made from it live in trees of their own,
behind those that were there before. No request works on trees of both kinds, so the answers of a
session after a reset fall apart into those of a new session and those of the old one. The main
statement is `Session.reset_starts_anew`.
-/

namespace QuoteStack

namespace Session

variable {session : Session}

/-! ## Requests apart -/

/-- A request is about an environment in one of the first `count` trees. -/
def isEarly (session : Session) (count : Nat) (request : Request) : Bool :=
  match request.environment?.bind fun environment => session.names.lookup environment with
  | some place => place.tree < count
  | none => false

/-- A request about an environment in one of the first `count` trees takes a name from an
environment behind them. -/
def takesName (session : Session) (count : Nat) (request : Request) : Bool :=
  match request with
  | .child _ name => session.isEarly count request &&
      session.names.any fun (other, place) => other == name && count ≤ place.tree
  | _ => false

theorem isEarly_iff {count : Nat} {request : Request} :
    session.isEarly count request = true ↔ ∃ environment place,
      request.environment? = some environment ∧
        session.names.lookup environment = some place ∧ place.tree < count := by
  rw [isEarly]
  cases hrequest : request.environment? with
  | none => simp
  | some environment =>
    rw [Option.bind_some]
    cases hlookup : session.names.lookup environment with
    | none => simp [hlookup]
    | some place => simp [hlookup]

/-- A name in any other request is that of an environment behind the trees, or of none. -/
theorem lookup_of_late {count : Nat} {request : Request} {environment : String}
    (hlate : session.isEarly count request = false)
    (hrequest : request.environment? = some environment) :
    session.names.lookup environment = none ∨
      ∃ place : Place, session.names.lookup environment = some (place.behind count) := by
  cases hlookup : session.names.lookup environment with
  | none => exact .inl rfl
  | some place =>
    by_cases hplace : count ≤ place.tree
    · obtain ⟨place, rfl⟩ := Place.exists_behind hplace
      exact .inr ⟨place, rfl⟩
    · have hlt := Nat.lt_of_not_le hplace
      have hearly := isEarly_iff.mpr ⟨environment, place, hrequest, hlookup, hlt⟩
      exact nomatch hearly.symm.trans hlate

/-- The state of a session after a reset, beside a new session that does what is asked of the new
environments and a session that goes on, without the reset, with what is asked of the old ones. -/
structure Beside (count : Nat) (session new old : Session) : Prop where
  limits_eq : session.limits = new.limits
  cells_eq : session.cells = new.cells
  size_eq : session.forest.trees.size = count + new.forest.trees.size
  current_eq : session.current = new.current.behind count
  missing : ∀ name, session.names.lookup name = none → new.names.lookup name = none
  late : session.Mirrors count (count ≤ ·) new
  early : session.Mirrors 0 (· < count) old

section
variable {count : Nat} {new old : Session} {request : Request}

theorem Beside.of_sameRoots (h : Beside count session new old) {session' new' old' : Session}
    (hsession : SameRoots session session') (hnew : SameRoots new new')
    (hmissing : ∀ name, session'.names.lookup name = none → new'.names.lookup name = none)
    (hlate : session'.Mirrors count (count ≤ ·) new')
    (hearly : session'.Mirrors 0 (· < count) old') :
    Beside count session' new' old' where
  limits_eq := by rw [hsession.limits_eq, hnew.limits_eq, h.limits_eq]
  cells_eq := by rw [hsession.cells_eq, hnew.cells_eq, h.cells_eq]
  size_eq := by rw [hsession.size_eq, hnew.size_eq, h.size_eq]
  current_eq := by rw [hsession.current_eq, hnew.current_eq, h.current_eq]
  missing := hmissing
  late := hlate
  early := hearly

/-- What is asked of an old environment is nothing to the new session. -/
theorem Beside.step_early (h : Beside count session new old)
    (hearly : session.isEarly count request = true) :
    (session.step request).1.unnamed = (old.step request).1.unnamed ∧
      Beside count (session.step request).2 new (old.step request).2 := by
  obtain ⟨environment, place, hrequest, hlookup, hplace⟩ := isEarly_iff.mp hearly
  have hzero : place = place.behind 0 := by rw [Place.behind, Nat.zero_add]
  have hpart : (place.behind 0).tree < count := hzero ▸ hplace
  obtain ⟨hanswer, -, hnext⟩ := h.early.step hrequest (hlookup.trans (congrArg some hzero)) hpart
  obtain ⟨hroots, hnames⟩ := session.step_keeps hrequest
  refine ⟨hanswer, h.of_sameRoots hroots (.refl new) (fun name hname => ?_) ?_ hnext⟩
  · exact h.missing name ((hnames name).mp hname).1
  · exact h.late.step_outside hrequest hlookup (Nat.not_le_of_lt hplace)

theorem Beside.performAtRoot (h : Beside count session new old) (action : Action) :
    (session.performAt session.current action).1 = (new.performAt new.current action).1 ∧
      Beside count (session.performAt session.current action).2
        (new.performAt new.current action).2 old := by
  have hbehind : count ≤ (new.current.behind count).tree := Nat.le_add_right _ _
  obtain ⟨hroots, hnames⟩ := session.performAt_keeps session.current action
  obtain ⟨hroots', hnames'⟩ := new.performAt_keeps new.current action
  rw [h.current_eq] at hroots hnames ⊢
  obtain ⟨hanswer, hlate⟩ := h.late.performAt hbehind action
  refine ⟨hanswer, h.of_sameRoots hroots hroots' ?_ hlate ?_⟩
  · rw [hnames, hnames']
    exact h.missing
  · exact h.early.performAt_outside (Nat.not_lt_of_le hbehind) action

/-- A reset adds a tree of the same root environment on each side. The roots before are given up, so
they need not correspond. -/
theorem beside_reset (hlimits : session.limits = new.limits) (hcells : session.cells = new.cells)
    (hsize : session.forest.trees.size = count + new.forest.trees.size)
    (hmissing : ∀ name, session.names.lookup name = none → new.names.lookup name = none)
    (hlate : session.Mirrors count (count ≤ ·) new) (hearly : session.Mirrors 0 (· < count) old) :
    Beside count (session.step .reset).2 (new.step .reset).2 old := by
  have hplace : (⟨session.forest.trees.size, 0⟩ : Place) =
      Place.behind count ⟨new.forest.trees.size, 0⟩ := by rw [hsize, Place.behind]
  have hroot : ¬ session.forest.trees.size < count := by omega
  -- the root gets its name after its tree has been added
  have hlate' : session.withRoot.Mirrors count (count ≤ ·) new.withRoot := by
    refine ⟨fun i _ => ?_, hlate.names⟩
    show (session.forest.trees.push _)[_]? = (new.forest.trees.push _)[_]?
    rw [Array.getElem?_push, Array.getElem?_push, hsize, hlimits, hcells]
    by_cases hi : i = new.forest.trees.size
    · rw [if_pos (by rw [hi]), if_pos hi]
    · rw [if_neg (by omega), if_neg hi]
      exact hlate.forest i (Nat.le_add_right _ _)
  have hearly' : session.withRoot.Mirrors 0 (· < count) old := by
    refine ⟨fun i hi => ?_, hearly.names⟩
    show (session.forest.trees.push _)[_]? = _
    rw [Array.getElem?_push, if_neg (by omega)]
    exact hearly.forest i hi
  refine
    { limits_eq := hlimits
      cells_eq := hcells
      size_eq := ?_
      current_eq := hplace
      missing := fun name hname => ?_
      late := ?_
      early := hearly'.rename_outside hroot rootName }
  · show (session.forest.trees.push _).size = count + (new.forest.trees.push _).size
    rw [Array.size_push, Array.size_push, hsize, Nat.add_assoc]
  · rw [step_reset, lookup_rename] at hname ⊢
    by_cases heq : name = rootName
    · rw [if_pos heq] at hname
      exact absurd hname (Option.some_ne_none _)
    · rw [if_neg heq] at hname ⊢
      exact hmissing name hname
  · rw [step_reset, step_reset, hplace]
    exact hlate'.rename rootName _

/-- What is asked of the current root or of a new environment is nothing to the old session. -/
theorem Beside.step_late (h : Beside count session new old)
    (hlate : session.isEarly count request = false) :
    (session.step request).1.unnamed = (new.step request).1.unnamed ∧
      (NamedAlike count session new → (session.step request).1 = (new.step request).1) ∧
      Beside count (session.step request).2 (new.step request).2 old := by
  cases hrequest : request.environment? with
  | some environment =>
    -- what is named is either missing on both sides, or behind the old trees
    rcases lookup_of_late hlate hrequest with hlookup | ⟨place, hlookup⟩
    · rw [step_of_missing hrequest hlookup, step_of_missing hrequest (h.missing _ hlookup)]
      exact ⟨rfl, fun _ => rfl, h⟩
    · have hplace : count ≤ (place.behind count).tree := Nat.le_add_right _ _
      obtain ⟨hunnamed, hnamed, hnext⟩ := h.late.step hrequest hlookup hplace
      obtain ⟨hroots, hnames⟩ := session.step_keeps hrequest
      obtain ⟨hroots', hnames'⟩ := new.step_keeps hrequest
      refine ⟨hunnamed, fun hnames => hnamed hnames.nameOf?_eq, ?_⟩
      refine h.of_sameRoots hroots hroots' (fun name hname => ?_) hnext ?_
      · obtain ⟨hname, hparent⟩ := (hnames name).mp hname
        refine (hnames' name).mpr ⟨h.missing name hname, fun parent hchild => ?_⟩
        exact h.missing parent (hparent parent hchild)
      · exact h.early.step_outside hrequest hlookup (Nat.not_lt_of_le hplace)
  | none =>
    cases request with
    | atRoot action =>
      obtain ⟨hanswer, hnext⟩ := h.performAtRoot action
      exact ⟨congrArg Answer.unnamed hanswer, fun _ => hanswer, hnext⟩
    | reset =>
      have hnext := beside_reset h.limits_eq h.cells_eq h.size_eq h.missing h.late h.early
      exact ⟨rfl, fun _ => rfl, hnext⟩
    | «at» other action => nomatch hrequest
    | child other name => nomatch hrequest
    | standing other => nomatch hrequest

/-- Requests about old environments that take no name from new ones leave the names of these. -/
theorem NamedAlike.step_early (h : NamedAlike count session new)
    (hearly : session.isEarly count request = true)
    (hname : session.takesName count request = false) :
    NamedAlike count (session.step request).2 new := by
  obtain ⟨environment, place, hrequest, hlookup, hplace⟩ := isEarly_iff.mp hearly
  rcases Request.cases_of_environment hrequest with ⟨action, rfl⟩ | ⟨name, rfl⟩ | rfl
  · rw [Session.step, hlookup]
    show new.names = _
    rw [(session.performAt_keeps place action).2]
    exact h
  · have hchild : (session.forest.addChild place).2.tree < count := hplace
    have hfree : ∀ found, (name, found) ∈ session.names → found.tree < count := by
      intro found hmem
      rw [takesName, hearly, Bool.true_and, List.any_eq_false] at hname
      simpa using hname (name, found) hmem
    rw [Session.step, hlookup]
    exact h.rename_outside hchild hfree
  · rw [step_standing]
    exact h

/-- Requests about the current root and new environments give the same names on both sides. -/
theorem NamedAlike.step_late (h : NamedAlike count session new)
    (hbeside : Beside count session new old) (hlate : session.isEarly count request = false) :
    NamedAlike count (session.step request).2 (new.step request).2 := by
  cases request with
  | atRoot action =>
    show (new.performAt _ action).2.names = (session.performAt _ action).2.names.filterMap _
    rw [(session.performAt_keeps _ action).2, (new.performAt_keeps _ action).2]
    exact h
  | reset =>
    -- the new root is behind the old trees
    have hplace : (⟨session.forest.trees.size, 0⟩ : Place) =
        Place.behind count ⟨new.forest.trees.size, 0⟩ := by rw [hbeside.size_eq, Place.behind]
    have hroot : NamedAlike count session.withRoot new.withRoot := h
    rw [step_reset, step_reset, hplace]
    exact hroot.rename rootName _
  | «at» other action =>
    rcases lookup_of_late hlate rfl with hlookup | ⟨place, hlookup⟩
    · rw [step_of_missing rfl hlookup, step_of_missing rfl (hbeside.missing _ hlookup)]
      exact h
    · rw [Session.step, Session.step, hlookup,
        hbeside.late.names other place (Nat.le_add_right _ _) hlookup]
      show (new.performAt _ action).2.names = (session.performAt _ action).2.names.filterMap _
      rw [(session.performAt_keeps _ action).2, (new.performAt_keeps _ action).2]
      exact h
  | child other name =>
    rcases lookup_of_late hlate rfl with hlookup | ⟨place, hlookup⟩
    · rw [step_of_missing rfl hlookup, step_of_missing rfl (hbeside.missing _ hlookup)]
      exact h
    · have hplace : count ≤ (place.behind count).tree := Nat.le_add_right _ _
      have hchild := h.rename name (new.forest.addChild place).2
      rw [← hbeside.late.forest.snd_addChild hplace] at hchild
      rw [Session.step, Session.step, hlookup, hbeside.late.names other place hplace hlookup]
      exact hchild
  | standing other =>
    rw [step_standing, step_standing]
    exact h

end

/-! ## Sessions after a reset -/

end Session

/-- A request with its answer. -/
structure Exchange where
  request : Request
  answer : Answer
  /-- Whether it was about an environment that was there before. -/
  isEarly : Bool
  /-- Whether it was, and took a name from an environment that was not. -/
  takesName : Bool

namespace Session

/-- What is asked and answered, told apart by whether it is about one of the first `count` trees. -/
def exchanges (session : Session) (count : Nat) : List Request → List Exchange
  | [] => []
  | request :: rest =>
    ⟨request, (session.step request).1, session.isEarly count request,
      session.takesName count request⟩ :: (session.step request).2.exchanges count rest

theorem map_request_exchanges (session : Session) (count : Nat) (requests : List Request) :
    (session.exchanges count requests).map (·.request) = requests := by
  induction requests generalizing session with
  | nil => rfl
  | cons request rest ih => exact congrArg (request :: ·) (ih _)

theorem map_answer_exchanges (session : Session) (count : Nat) (requests : List Request) :
    (session.exchanges count requests).map (·.answer) = (session.run requests).1 := by
  induction requests generalizing session with
  | nil => rfl
  | cons request rest ih => exact congrArg ((session.step request).1 :: ·) (ih _)

/-- What is asked of the environments that were there before, with the answers. -/
def early (session : Session) (count : Nat) (requests : List Request) : List Exchange :=
  (session.exchanges count requests).filter (·.isEarly)

/-- What else is asked, with the answers. -/
def late (session : Session) (count : Nat) (requests : List Request) : List Exchange :=
  (session.exchanges count requests).filter (!·.isEarly)

section
variable {count : Nat} {new old : Session}

/-- What is asked of the old environments is answered as if there were no new ones, and the rest is
answered as in the new session, but for names. -/
theorem Beside.run (h : Beside count session new old) (requests : List Request) :
    (session.late count requests).map (·.answer.unnamed) =
        (new.run ((session.late count requests).map (·.request))).1.map Answer.unnamed ∧
      (session.early count requests).map (·.answer.unnamed) =
        (old.run ((session.early count requests).map (·.request))).1.map Answer.unnamed ∧
      Beside count (session.run requests).2
        (new.run ((session.late count requests).map (·.request))).2
        (old.run ((session.early count requests).map (·.request))).2 := by
  induction requests generalizing session new old with
  | nil => exact ⟨rfl, rfl, h⟩
  | cons request rest ih =>
    rw [Session.late, Session.early, exchanges]
    cases hearly : session.isEarly count request with
    | true =>
      obtain ⟨hanswer, hnext⟩ := h.step_early hearly
      obtain ⟨hlate, hearly', hlast⟩ := ih hnext
      rw [List.filter_cons_of_neg (by simp), List.filter_cons_of_pos rfl]
      exact ⟨hlate, List.cons_eq_cons.mpr ⟨hanswer, hearly'⟩, hlast⟩
    | false =>
      obtain ⟨hanswer, -, hnext⟩ := h.step_late hearly
      obtain ⟨hlate, hearly', hlast⟩ := ih hnext
      rw [List.filter_cons_of_pos rfl, List.filter_cons_of_neg (by simp)]
      exact ⟨List.cons_eq_cons.mpr ⟨hanswer, hlate⟩, hearly', hlast⟩

/-- While no name is taken from a new environment, the answers are the same with names. -/
theorem Beside.run_of_named (h : Beside count session new old)
    (hnamed : NamedAlike count session new) (requests : List Request)
    (hnames : ∀ exchange ∈ session.exchanges count requests, exchange.takesName = false) :
    (session.late count requests).map (·.answer) =
      (new.run ((session.late count requests).map (·.request))).1 := by
  induction requests generalizing session new old with
  | nil => rfl
  | cons request rest ih =>
    obtain ⟨hname, hrest⟩ := List.forall_mem_cons.mp hnames
    rw [Session.late, exchanges]
    cases hearly : session.isEarly count request with
    | true =>
      obtain ⟨-, hnext⟩ := h.step_early hearly
      rw [List.filter_cons_of_neg (by simp)]
      exact ih hnext (hnamed.step_early hearly hname) hrest
    | false =>
      obtain ⟨-, hanswer, hnext⟩ := h.step_late hearly
      rw [List.filter_cons_of_pos rfl]
      exact List.cons_eq_cons.mpr ⟨hanswer hnamed, ih hnext (hnamed.step_late h hearly) hrest⟩

end

/-! ## Sessions before a reset -/

variable {session : Session}

/-- Every name is that of a place in a tree that exists. -/
def IsPlaced (session : Session) : Prop :=
  ∀ entry ∈ session.names, entry.2.tree < session.forest.trees.size

theorem IsPlaced.rename (h : session.IsPlaced) (name : String) {place : Place}
    (hplace : place.tree < session.forest.trees.size) : (session.rename name place).IsPlaced := by
  intro entry hentry
  rcases List.mem_cons.mp hentry with rfl | hentry
  · exact hplace
  · exact h entry (List.mem_filter.mp hentry).1

theorem IsPlaced.performAt (h : session.IsPlaced) (place : Place) (action : Action) :
    (session.performAt place action).2.IsPlaced := by
  obtain ⟨hroots, hnames⟩ := session.performAt_keeps place action
  intro entry hentry
  rw [hroots.size_eq]
  exact h entry (hnames ▸ hentry)

theorem IsPlaced.step (h : session.IsPlaced) (request : Request) :
    (session.step request).2.IsPlaced := by
  cases request with
  | atRoot action => exact h.performAt session.current action
  | reset =>
    have hroot : session.withRoot.IsPlaced := by
      intro entry hentry
      show _ < (session.forest.trees.push _).size
      rw [Array.size_push]
      exact Nat.lt_succ_of_lt (h entry hentry)
    refine hroot.rename rootName ?_
    show _ < (session.forest.trees.push _).size
    rw [Array.size_push]
    exact Nat.lt_succ_self _
  | «at» environment action =>
    rw [Session.step]
    cases session.names.lookup environment with
    | none => exact h
    | some place => exact h.performAt place action
  | child environment name =>
    rw [Session.step]
    cases hlookup : session.names.lookup environment with
    | none => exact h
    | some place =>
      -- a child is put into the tree of its parent, so no tree is added
      have hplaces : IsPlaced { session with forest := (session.forest.addChild place).1 } := by
        intro entry hentry
        show _ < (session.forest.trees.modify _ _).size
        rw [Array.size_modify]
        exact h entry hentry
      refine hplaces.rename name ?_
      show place.tree < (session.forest.trees.modify _ _).size
      rw [Array.size_modify]
      exact h (environment, place) (Machine.mem_of_lookup hlookup)
  | standing environment =>
    rw [step_standing]
    exact h

theorem IsPlaced.run (h : session.IsPlaced) (requests : List Request) :
    (session.run requests).2.IsPlaced := by
  induction requests generalizing session with
  | nil => exact h
  | cons request rest ih => exact ih (h.step request)

theorem isPlaced_new (limits : Limits) (cells : List (String × Cell)) :
    (Session.new limits cells).IsPlaced := by
  intro entry hentry
  obtain rfl := List.mem_singleton.mp hentry
  exact Nat.zero_lt_one

/-- Any requests leave a session with the limits and the cells that its root environments have. -/
theorem run_keeps (session : Session) (requests : List Request) :
    (session.run requests).2.limits = session.limits ∧
      (session.run requests).2.cells = session.cells := by
  have hinv : Invariant session.limits session.cells (fun _ => True) (fun _ => True)
      (fun _ => True) :=
    { new := trivial
      addChild := fun _ _ _ => trivial
      update := fun _ _ _ _ _ _ _ => trivial
      refused := fun _ => trivial
      failed := fun _ _ _ _ _ _ _ _ _ => trivial }
  have hstart : session.Satisfies session.limits session.cells (fun _ => True) :=
    ⟨rfl, rfl, fun _ _ => trivial⟩
  obtain ⟨hlast, -⟩ := hinv.run hstart requests fun _ _ _ _ => trivial
  exact ⟨hlast.limits_eq, hlast.cells_eq⟩

/-- A session before its first root environment. -/
def empty (limits : Limits) (cells : List (String × Cell)) : Session :=
  { limits, cells, forest := ⟨#[]⟩, current := ⟨0, 0⟩, names := [] }

theorem new_eq_reset (limits : Limits) (cells : List (String × Cell)) :
    Session.new limits cells = ((empty limits cells).step .reset).2 :=
  rfl

/-- A reset puts a session beside a new one and beside itself. -/
theorem beside_new {limits : Limits} {cells : List (String × Cell)}
    (hlimits : session.limits = limits) (hcells : session.cells = cells) (h : session.IsPlaced) :
    Beside session.forest.trees.size (session.step .reset).2 (.new limits cells) session ∧
      NamedAlike session.forest.trees.size (session.step .reset).2 (.new limits cells) := by
  have hlate : session.Mirrors session.forest.trees.size (session.forest.trees.size ≤ ·)
      (empty limits cells) := by
    refine ⟨fun i _ => ?_, fun name place hpart hlookup => ?_⟩
    · rw [Array.getElem?_eq_none (Nat.le_add_right _ _)]
      rfl
    · exact absurd (h _ (Machine.mem_of_lookup hlookup)) (Nat.not_lt_of_le hpart)
  have hearly : session.Mirrors 0 (· < session.forest.trees.size) session := by
    refine ⟨fun i _ => by rw [Nat.zero_add], fun name place _ hlookup => ?_⟩
    rwa [Place.behind, Nat.zero_add] at hlookup
  have hnamed : NamedAlike session.forest.trees.size session.withRoot
      (empty limits cells).withRoot := by
    refine (List.filterMap_eq_nil_iff.mpr fun entry hentry => ?_).symm
    exact entryAhead?_of_lt (h entry hentry)
  rw [new_eq_reset]
  exact ⟨beside_reset hlimits hcells rfl (fun _ _ => rfl) hlate hearly, hnamed.rename rootName _⟩

/-- After any requests and a reset, what is asked of the current root, of environments made since or
of unknown ones is answered as a new session answers it, up to the names that are told of other
environments; and with these names, too, unless a request about an old environment takes the name of
a new one. What is asked of the old environments is answered, up to such names, as if there had been
no reset. The trees made since are at all times those of the new session, and the old ones are those
of the session without the reset. -/
theorem reset_starts_anew (limits : Limits) (cells : List (String × Cell))
    (before further : List Request) :
    let old := ((Session.new limits cells).run before).2
    let count := old.forest.trees.size
    let session := (old.step .reset).2
    let late := session.late count further
    let early := session.early count further
    let last := (session.run further).2
    let fresh := (Session.new limits cells).run (late.map (·.request))
    let kept := old.run (early.map (·.request))
    ((session.exchanges count further).map (·.request) = further ∧
      (session.exchanges count further).map (·.answer) = (session.run further).1) ∧
    (late.map (·.answer.unnamed) = fresh.1.map Answer.unnamed ∧
      ((∀ exchange ∈ session.exchanges count further, exchange.takesName = false) →
        late.map (·.answer) = fresh.1) ∧
      last.current = fresh.2.current.behind count ∧
      last.forest.trees.size = count + fresh.2.forest.trees.size ∧
      (∀ i, last.forest.trees[count + i]? = fresh.2.forest.trees[i]?) ∧
      ∀ name place, last.names.lookup name = some (place.behind count) →
        fresh.2.names.lookup name = some place) ∧
    (early.map (·.answer.unnamed) = kept.1.map Answer.unnamed ∧
      (∀ i < count, last.forest.trees[i]? = kept.2.forest.trees[i]?) ∧
      ∀ name place, place.tree < count → last.names.lookup name = some place →
        kept.2.names.lookup name = some place) := by
  intro old count session late early last fresh kept
  obtain ⟨hlimits, hcells⟩ := (Session.new limits cells).run_keeps before
  have hplaced : old.IsPlaced := (isPlaced_new limits cells).run before
  obtain ⟨hbeside, hnamed⟩ := beside_new hlimits hcells hplaced
  obtain ⟨hlate, hearly, hlast⟩ := hbeside.run further
  refine ⟨⟨map_request_exchanges _ _ _, map_answer_exchanges _ _ _⟩, ⟨hlate, ?_, hlast.current_eq,
    hlast.size_eq, fun i => ?_, fun name place hname => ?_⟩, hearly, fun i hi => ?_,
    fun name place hplace hname => ?_⟩
  · exact hbeside.run_of_named hnamed further
  · exact hlast.late.forest i (Nat.le_add_right _ _)
  · exact hlast.late.names name place (Nat.le_add_right _ _) hname
  · have htree := hlast.early.forest i ((Nat.zero_add i).symm ▸ hi)
    rwa [Nat.zero_add] at htree
  · have hzero : place = place.behind 0 := by rw [Place.behind, Nat.zero_add]
    rw [hzero] at hplace hname
    exact hlast.early.names name place hplace hname

/-- A closure that is made in an old child between the requests to the new root. -/
theorem reset_starts_anew_closure_in_old_child :
    let close : Action := .execute [.value (.block [.symbol "sum"]), .value (.symbol "do")]
    let old := ((Session.new {} Builtin.cells).run [.child "root" "old", .atRoot close]).2
    let session := (old.step .reset).2
    let further : List Request :=
      [.at "old" close, .atRoot close, .child "root" "new", .at "new" close, .standing "new"]
    (∀ exchange ∈ session.exchanges old.forest.trees.size further, exchange.takesName = false) ∧
      (session.late old.forest.trees.size further).map (·.answer) =
        ((Session.new {} Builtin.cells).run
          ((session.late old.forest.trees.size further).map (·.request))).1 := by
  intro close old session further
  have hnames : ∀ exchange ∈ session.exchanges old.forest.trees.size further,
      exchange.takesName = false := by
    have hall : (session.exchanges old.forest.trees.size further).all (!·.takesName) = true := by
      unfold session old further close
      decide +kernel
    intro exchange hmem
    simpa using List.all_eq_true.mp hall exchange hmem
  obtain ⟨-, ⟨-, hanswers, -⟩, -⟩ :=
    reset_starts_anew {} Builtin.cells [.child "root" "old", .atRoot close] further
  exact ⟨hnames, hanswers hnames⟩

end Session

end QuoteStack
