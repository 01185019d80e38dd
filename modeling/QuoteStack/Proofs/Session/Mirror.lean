import QuoteStack.Session

/-!
Sessions that mirror a part of another one. The trees of a part stand in one forest as they stand in
another one, with some more trees before them, and the names of environments in them are the same. A
request about such an environment is answered alike on both sides, but for the names of others, and
keeps the two sides alike; a request about an environment outside of the part is nothing to the
other side. The main statements are `Session.Mirrors.step` and `Session.Mirrors.step_outside`.
-/

namespace QuoteStack

/-! ## Forests -/

/-- The same place where `offset` trees stand before. -/
def Place.behind (offset : Nat) (place : Place) : Place :=
  ⟨offset + place.tree, place.environment⟩

/-- The place that stands here with `offset` trees before it, if there are so many. -/
def Place.ahead? (offset : Nat) (place : Place) : Option Place :=
  if offset ≤ place.tree then some ⟨place.tree - offset, place.environment⟩ else none

theorem Place.ahead?_behind (offset : Nat) (place : Place) :
    (place.behind offset).ahead? offset = some place := by
  have hle : offset ≤ (place.behind offset).tree := Nat.le_add_right _ _
  rw [ahead?, if_pos hle, behind, Nat.add_sub_cancel_left]

theorem Place.behind_inj {offset : Nat} {place place' : Place} :
    place.behind offset = place'.behind offset ↔ place = place' := by
  obtain ⟨tree, environment⟩ := place
  obtain ⟨tree', environment'⟩ := place'
  simp [behind]

theorem Place.exists_behind {offset : Nat} {place : Place} (h : offset ≤ place.tree) :
    ∃ place', place = Place.behind offset place' := by
  refine ⟨⟨place.tree - offset, place.environment⟩, ?_⟩
  rw [behind, Nat.add_sub_cancel' h]

/-- What one forest has in the trees of a part is what another one has, `offset` trees before. -/
def Forest.Mirrors (offset : Nat) (part : Nat → Prop) (forest other : Forest) : Prop :=
  ∀ i, part (offset + i) → forest.trees[offset + i]? = other.trees[i]?

namespace Forest.Mirrors

variable {offset : Nat} {part : Nat → Prop} {forest other : Forest} {place : Place}

theorem view?_eq (h : forest.Mirrors offset part other) (hpart : part (place.behind offset).tree) :
    forest.view? (place.behind offset) = other.view? place := by
  rw [Forest.view?, Forest.view?, ← h place.tree hpart]
  rfl

theorem parent?_eq (h : forest.Mirrors offset part other)
    (hpart : part (place.behind offset).tree) :
    forest.parent? (place.behind offset) = (other.parent? place).map (Place.behind offset) := by
  rw [Forest.parent?, Forest.parent?, ← h place.tree hpart, Option.map_map]
  rfl

/-- The same change to trees that mirror each other. -/
theorem modify (h : forest.Mirrors offset part other) (i : Nat) (f : Tree → Tree) :
    Mirrors offset part ⟨forest.trees.modify (offset + i) f⟩ ⟨other.trees.modify i f⟩ := by
  intro j hj
  show (forest.trees.modify _ _)[_]? = (other.trees.modify _ _)[_]?
  rw [Array.getElem?_modify, Array.getElem?_modify, h j hj]
  by_cases hij : i = j
  · rw [if_pos (congrArg (offset + ·) hij), if_pos hij]
  · rw [if_neg (by omega), if_neg hij]

/-- A change to a tree outside of the part. -/
theorem modify_outside (h : forest.Mirrors offset part other) {i : Nat} (hi : ¬ part i)
    (f : Tree → Tree) : Mirrors offset part ⟨forest.trees.modify i f⟩ other := by
  intro j hj
  have hne : i ≠ offset + j := by
    intro heq
    exact hi (heq ▸ hj)
  show (forest.trees.modify _ _)[_]? = _
  rw [Array.getElem?_modify, if_neg hne]
  exact h j hj

theorem snd_addChild (h : forest.Mirrors offset part other)
    (hpart : part (place.behind offset).tree) :
    (forest.addChild (place.behind offset)).2 = (other.addChild place).2.behind offset := by
  rw [Forest.addChild, Forest.addChild, ← h place.tree hpart]
  rfl

end Forest.Mirrors

/-! ## Sessions that mirror a part of another one -/

/-- What is known of an environment without the names of others. -/
def Standing.unnamed (standing : Standing) : Standing :=
  { standing with parent? := none, root? := none }

/-- A reply without the names of environments. -/
def Reply.unnamed : Reply → Reply
  | .standing known => .standing known.unnamed
  | reply => reply

/-- An answer without the names of environments. -/
def Answer.unnamed (answer : Answer) : Answer :=
  { answer with result := answer.result.map Reply.unnamed }

/-- The name of the environment that a request is about, if it is about a named one. -/
def Request.environment? : Request → Option String
  | .at environment _ => some environment
  | .child environment _ => some environment
  | .standing environment => some environment
  | .atRoot _ => none
  | .reset => none

/-- What can be asked of a named environment. -/
theorem Request.cases_of_environment {request : Request} {environment : String}
    (h : request.environment? = some environment) :
    (∃ action, request = .at environment action) ∨ (∃ name, request = .child environment name) ∨
      request = .standing environment := by
  cases request with
  | atRoot action => exact absurd h (Option.some_ne_none _).symm
  | reset => exact absurd h (Option.some_ne_none _).symm
  | «at» other action =>
    obtain rfl := Option.some.inj h
    exact .inl ⟨action, rfl⟩
  | child other name =>
    obtain rfl := Option.some.inj h
    exact .inr (.inl ⟨name, rfl⟩)
  | standing other =>
    obtain rfl := Option.some.inj h
    exact .inr (.inr rfl)

namespace Session

variable {offset : Nat} {part : Nat → Prop} {session other : Session} {place : Place}

theorem lookup_rename (session : Session) (name : String) (place : Place) (other : String) :
    (session.rename name place).names.lookup other =
      if other = name then some place else session.names.lookup other := by
  by_cases h : other = name
  · rw [if_pos h, rename, h, List.lookup_cons_self]
  · rw [if_neg h, rename, List.lookup_cons, beq_false_of_ne h]
    -- the names that are dropped are not the one that is looked up
    show (session.names.filter _).lookup other = _
    induction session.names with
    | nil => rfl
    | cons entry rest ih =>
      obtain ⟨first, at'⟩ := entry
      by_cases hfirst : first = name
      · have hne : (other == first) = false := beq_false_of_ne (hfirst ▸ h)
        rw [List.filter_cons_of_neg (by simpa using hfirst), ih, List.lookup_cons, hne]
      · rw [List.filter_cons_of_pos (by simpa using hfirst), List.lookup_cons, List.lookup_cons, ih]

/-- A session with a new root environment that has no name yet. -/
def withRoot (session : Session) : Session :=
  { session with
    forest := (session.forest.addRoot (.ofCells session.limits session.cells)).1
    current := ⟨session.forest.trees.size, 0⟩ }

theorem step_reset (session : Session) :
    (session.step .reset).2 = session.withRoot.rename rootName ⟨session.forest.trees.size, 0⟩ :=
  rfl

theorem step_standing (session : Session) (environment : String) :
    session.step (.standing environment) =
      (((session.names.lookup environment >>= session.standingAt?).map fun standing =>
        ⟨.ok (.standing standing), []⟩).getD (unknown environment), session) := by
  rw [step]
  cases session.names.lookup environment >>= session.standingAt? <;> rfl

/-- What one session has in the trees of a part, another one has under the same names, `offset`
trees before. -/
structure Mirrors (offset : Nat) (part : Nat → Prop) (session other : Session) : Prop where
  forest : session.forest.Mirrors offset part other.forest
  names : ∀ name place, part (place.behind offset).tree →
    session.names.lookup name = some (place.behind offset) →
    other.names.lookup name = some place

namespace Mirrors

theorem performAt (h : session.Mirrors offset part other) (hpart : part (place.behind offset).tree)
    (action : Action) :
    (session.performAt (place.behind offset) action).1 = (other.performAt place action).1 ∧
      Mirrors offset part (session.performAt (place.behind offset) action).2
        (other.performAt place action).2 := by
  rw [Session.performAt, Session.performAt, h.forest.view?_eq hpart]
  cases other.forest.view? place with
  | none => exact ⟨rfl, h⟩
  | some m => exact ⟨rfl, ⟨h.forest.modify place.tree _, h.names⟩⟩

theorem performAt_outside (h : session.Mirrors offset part other) (hpart : ¬ part place.tree)
    (action : Action) : Mirrors offset part (session.performAt place action).2 other := by
  rw [Session.performAt]
  cases session.forest.view? place with
  | none => exact h
  | some m => exact ⟨h.forest.modify_outside hpart _, h.names⟩

theorem rename (h : session.Mirrors offset part other) (name : String) (place : Place) :
    (session.rename name (place.behind offset)).Mirrors offset part (other.rename name place) := by
  refine ⟨h.forest, fun asked found hpart hlookup => ?_⟩
  rw [lookup_rename] at hlookup ⊢
  by_cases hname : asked = name
  · rw [if_pos hname] at hlookup ⊢
    rw [Place.behind_inj.mp (Option.some.inj hlookup)]
  · rw [if_neg hname] at hlookup ⊢
    exact h.names asked found hpart hlookup

theorem rename_outside (h : session.Mirrors offset part other) (hpart : ¬ part place.tree)
    (name : String) : (session.rename name place).Mirrors offset part other := by
  refine ⟨h.forest, fun asked found hfound hlookup => h.names asked found hfound ?_⟩
  rw [lookup_rename] at hlookup
  by_cases hname : asked = name
  · rw [if_pos hname] at hlookup
    obtain rfl := Option.some.inj hlookup
    exact absurd hfound hpart
  · rwa [if_neg hname] at hlookup

/-- What is known of an environment is the same but for names, and the same with them if these are
given alike. -/
theorem standingAt?_eq (h : session.Mirrors offset part other)
    (hpart : part (place.behind offset).tree) :
    (session.standingAt? (place.behind offset)).map Standing.unnamed =
        (other.standingAt? place).map Standing.unnamed ∧
      ((∀ place, session.nameOf? (place.behind offset) = other.nameOf? place) →
        session.standingAt? (place.behind offset) = other.standingAt? place) := by
  refine ⟨?_, fun hnames => ?_⟩
  · rw [standingAt?, standingAt?, h.forest.view?_eq hpart, Option.map_map, Option.map_map]
    rfl
  · have hroot : session.nameOf? ⟨(place.behind offset).tree, 0⟩ = other.nameOf? ⟨place.tree, 0⟩ :=
      hnames ⟨place.tree, 0⟩
    have hparent : (session.forest.parent? (place.behind offset) >>= session.nameOf?) =
        other.forest.parent? place >>= other.nameOf? := by
      rw [h.forest.parent?_eq hpart]
      cases other.forest.parent? place with
      | none => rfl
      | some parent => exact hnames parent
    rw [standingAt?, standingAt?, h.forest.view?_eq hpart, hroot, hparent]

/-- A request about a named environment of the part. -/
theorem step (h : session.Mirrors offset part other) {request : Request} {environment : String}
    (hrequest : request.environment? = some environment)
    (hlookup : session.names.lookup environment = some (place.behind offset))
    (hpart : part (place.behind offset).tree) :
    (session.step request).1.unnamed = (other.step request).1.unnamed ∧
      ((∀ place, session.nameOf? (place.behind offset) = other.nameOf? place) →
        (session.step request).1 = (other.step request).1) ∧
      Mirrors offset part (session.step request).2 (other.step request).2 := by
  have hother := h.names environment place hpart hlookup
  rcases Request.cases_of_environment hrequest with ⟨action, rfl⟩ | ⟨new, rfl⟩ | rfl
  · obtain ⟨hanswer, hnext⟩ := h.performAt hpart action
    rw [Session.step, Session.step, hlookup, hother]
    exact ⟨congrArg Answer.unnamed hanswer, fun _ => hanswer, hnext⟩
  · have hforest : (session.forest.addChild (place.behind offset)).1.Mirrors offset part
        (other.forest.addChild place).1 := h.forest.modify place.tree _
    -- the child is made on both sides, one behind the other, before it gets its name
    have hplaces : Mirrors offset part
        { session with forest := (session.forest.addChild (place.behind offset)).1 }
        { other with forest := (other.forest.addChild place).1 } := ⟨hforest, h.names⟩
    have hchild := hplaces.rename new (other.forest.addChild place).2
    rw [← h.forest.snd_addChild hpart] at hchild
    rw [Session.step, Session.step, hlookup, hother]
    exact ⟨rfl, fun _ => rfl, hchild⟩
  · obtain ⟨hunnamed, hnamed⟩ := h.standingAt?_eq hpart
    rw [step_standing, step_standing, hlookup, hother]
    show Answer.unnamed (Option.getD (Option.map _ (session.standingAt? _)) _) =
      Answer.unnamed (Option.getD (Option.map _ (other.standingAt? _)) _) ∧ _
    refine ⟨?_, fun hnames => ?_, h⟩
    · -- without names, the answer is made from what is known without names
      have hanswer : ∀ known? : Option Standing,
          ((known?.map fun s => Answer.mk (.ok (.standing s)) []).getD
              (unknown environment)).unnamed =
            ((known?.map Standing.unnamed).map fun s => Answer.mk (.ok (.standing s)) []).getD
              (unknown environment) := by
        intro known?
        cases known? <;> rfl
      rw [hanswer, hanswer, hunnamed]
    · show Option.getD (Option.map _ (session.standingAt? _)) _ = _
      rw [hnamed hnames]
      rfl

/-- A request about a named environment outside of the part. -/
theorem step_outside (h : session.Mirrors offset part other) {request : Request}
    {environment : String} (hrequest : request.environment? = some environment)
    (hlookup : session.names.lookup environment = some place) (hpart : ¬ part place.tree) :
    Mirrors offset part (session.step request).2 other := by
  rcases Request.cases_of_environment hrequest with ⟨action, rfl⟩ | ⟨new, rfl⟩ | rfl
  · rw [Session.step, hlookup]
    exact h.performAt_outside hpart action
  · have hforest : (session.forest.addChild place).1.Mirrors offset part other.forest :=
      h.forest.modify_outside hpart _
    have hplaces : Mirrors offset part
        { session with forest := (session.forest.addChild place).1 } other := ⟨hforest, h.names⟩
    -- a child is in the tree of its parent
    have hchild : ¬ part (session.forest.addChild place).2.tree := hpart
    rw [Session.step, hlookup]
    exact hplaces.rename_outside hchild new
  · rw [step_standing]
    exact h

end Mirrors

/-! ## What requests leave alone -/

/-- Two states of a session make and have the same root environments. -/
structure SameRoots (session after : Session) : Prop where
  limits_eq : after.limits = session.limits
  cells_eq : after.cells = session.cells
  current_eq : after.current = session.current
  size_eq : after.forest.trees.size = session.forest.trees.size

theorem SameRoots.refl (session : Session) : SameRoots session session :=
  ⟨rfl, rfl, rfl, rfl⟩

theorem performAt_keeps (session : Session) (place : Place) (action : Action) :
    SameRoots session (session.performAt place action).2 ∧
      (session.performAt place action).2.names = session.names := by
  rw [performAt]
  cases session.forest.view? place with
  | none => exact ⟨.refl session, rfl⟩
  | some m => exact ⟨⟨rfl, rfl, rfl, Array.size_modify⟩, rfl⟩

/-- A request about a named environment makes no root environment. It gives a name only to a child,
and only if there is the environment of which it is to be a child. -/
theorem step_keeps (session : Session) {request : Request} {environment : String}
    (hrequest : request.environment? = some environment) :
    SameRoots session (session.step request).2 ∧
      ∀ name, (session.step request).2.names.lookup name = none ↔
        session.names.lookup name = none ∧
          ∀ parent, request = .child parent name → session.names.lookup parent = none := by
  rcases Request.cases_of_environment hrequest with ⟨action, rfl⟩ | ⟨new, rfl⟩ | rfl
  · rw [step]
    cases session.names.lookup environment with
    | none => exact ⟨.refl session, fun name => by simp⟩
    | some place =>
      obtain ⟨hroots, hnames⟩ := session.performAt_keeps place action
      exact ⟨hroots, fun name => by simp [hnames]⟩
  · rw [step]
    cases hlookup : session.names.lookup environment with
    | none =>
      refine ⟨.refl session, fun name => ⟨fun h => ⟨h, fun parent hchild => ?_⟩, And.left⟩⟩
      rwa [← (Request.child.inj hchild).1]
    | some place =>
      refine ⟨⟨rfl, rfl, rfl, Array.size_modify⟩, fun name => ?_⟩
      show (rename _ new _).names.lookup name = none ↔ _
      -- the only name that is given is that of the child
      rw [lookup_rename]
      by_cases hname : name = new
      · rw [if_pos hname]
        refine ⟨fun h => absurd h (Option.some_ne_none _), fun h => ?_⟩
        have hmissing := h.2 environment (by rw [hname])
        exact absurd (hlookup.symm.trans hmissing) (Option.some_ne_none _)
      · rw [if_neg hname]
        refine ⟨fun h => ⟨h, fun parent hchild => ?_⟩, And.left⟩
        exact absurd (Request.child.inj hchild).2.symm hname
  · rw [step_standing]
    exact ⟨.refl session, fun name => by simp⟩

/-- A request about an environment that does not exist. -/
theorem step_of_missing {request : Request} {environment : String}
    (hrequest : request.environment? = some environment)
    (hlookup : session.names.lookup environment = none) :
    session.step request = (unknown environment, session) := by
  rcases Request.cases_of_environment hrequest with ⟨action, rfl⟩ | ⟨name, rfl⟩ | rfl
  · rw [step, hlookup]
  · rw [step, hlookup]
  · rw [step_standing, hlookup]
    rfl

/-! ## Names -/

/-- A name of a place behind `count` trees, as the name of the place without them. -/
def entryAhead? (count : Nat) (entry : String × Place) : Option (String × Place) :=
  (entry.2.ahead? count).map (entry.1, ·)

theorem entryAhead?_behind (count : Nat) (name : String) (place : Place) :
    entryAhead? count (name, place.behind count) = some (name, place) := by
  rw [entryAhead?, Place.ahead?_behind]
  rfl

theorem entryAhead?_of_lt {count : Nat} {entry : String × Place} (h : entry.2.tree < count) :
    entryAhead? count entry = none := by
  rw [entryAhead?, Place.ahead?, if_neg (Nat.not_le_of_lt h)]
  rfl

/-- The names of one session are those that another one gives to places behind `count` trees. -/
def NamedAlike (count : Nat) (session other : Session) : Prop :=
  other.names = session.names.filterMap (entryAhead? count)

namespace NamedAlike

variable {count : Nat}

theorem nameOf?_eq (h : NamedAlike count session other) (place : Place) :
    session.nameOf? (place.behind count) = other.nameOf? place := by
  rw [nameOf?, nameOf?, h]
  induction session.names with
  | nil => rfl
  | cons entry rest ih =>
    obtain ⟨name, found⟩ := entry
    by_cases hbehind : count ≤ found.tree
    · obtain ⟨found, rfl⟩ := Place.exists_behind hbehind
      rw [List.filterMap_cons_some (entryAhead?_behind count name found)]
      by_cases hfound : found = place
      · rw [List.find?_cons_of_pos (by simp [hfound]), List.find?_cons_of_pos (by simp [hfound])]
        rfl
      · have hne : found.behind count ≠ place.behind count := fun heq =>
          hfound (Place.behind_inj.mp heq)
        rw [List.find?_cons_of_neg (by simp [hne]), List.find?_cons_of_neg (by simp [hfound]), ih]
    · have hne : found ≠ place.behind count := by
        rintro rfl
        exact hbehind (Nat.le_add_right _ _)
      rw [List.filterMap_cons_none (entryAhead?_of_lt (Nat.lt_of_not_le hbehind)),
        List.find?_cons_of_neg (by simp [hne]), ih]

/-- A name is taken from its places on both sides alike. -/
theorem filterMap_dropName (entries : List (String × Place)) (name : String) :
    (entries.filter fun (other, _) => other != name).filterMap (entryAhead? count) =
      (entries.filterMap (entryAhead? count)).filter fun (other, _) => other != name := by
  induction entries with
  | nil => rfl
  | cons entry rest ih =>
    obtain ⟨other, place⟩ := entry
    by_cases hbehind : count ≤ place.tree
    · obtain ⟨place, rfl⟩ := Place.exists_behind hbehind
      have hsome := entryAhead?_behind count other place
      rw [List.filterMap_cons_some hsome]
      by_cases hname : other = name
      · rw [List.filter_cons_of_neg (by simp [hname]), List.filter_cons_of_neg (by simp [hname]),
          ih]
      · rw [List.filter_cons_of_pos (by simp [hname]), List.filter_cons_of_pos (by simp [hname]),
          List.filterMap_cons_some hsome, ih]
    · have hnone : entryAhead? count (other, place) = none :=
        entryAhead?_of_lt (Nat.lt_of_not_le hbehind)
      rw [List.filterMap_cons_none hnone]
      by_cases hname : other = name
      · rw [List.filter_cons_of_neg (by simp [hname]), ih]
      · rw [List.filter_cons_of_pos (by simp [hname]), List.filterMap_cons_none hnone, ih]

theorem rename (h : NamedAlike count session other) (name : String) (place : Place) :
    NamedAlike count (session.rename name (place.behind count)) (other.rename name place) := by
  show (name, place) :: other.names.filter _ = List.filterMap _ (_ :: session.names.filter _)
  rw [List.filterMap_cons_some (entryAhead?_behind count name place), filterMap_dropName, ← h]

theorem rename_outside (h : NamedAlike count session other) {name : String} {place : Place}
    (hplace : place.tree < count)
    (hname : ∀ found, (name, found) ∈ session.names → found.tree < count) :
    NamedAlike count (session.rename name place) other := by
  show other.names = List.filterMap _ (_ :: session.names.filter _)
  rw [List.filterMap_cons_none (entryAhead?_of_lt hplace), filterMap_dropName, ← h]
  refine (List.filter_eq_self.mpr fun entry hentry => ?_).symm
  -- a name that is dropped would be that of a place behind the trees
  rw [h] at hentry
  obtain ⟨⟨other, found⟩, hmem, hsome⟩ := List.mem_filterMap.mp hentry
  by_cases hfound : count ≤ found.tree
  · obtain ⟨found, rfl⟩ := Place.exists_behind hfound
    rw [entryAhead?_behind] at hsome
    obtain rfl := Option.some.inj hsome
    refine bne_iff_ne.mpr ?_
    rintro rfl
    exact absurd (hname _ hmem) (Nat.not_lt_of_le hfound)
  · rw [entryAhead?_of_lt (Nat.lt_of_not_le hfound)] at hsome
    exact nomatch hsome

end NamedAlike

end Session

end QuoteStack
