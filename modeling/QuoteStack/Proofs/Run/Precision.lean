import QuoteStack.Proofs.Run.Failure
import QuoteStack.Proofs.Run.Inline

/-!
Where the precision of division is to blame. Builtin procedures and closures keep to every law that
lets them have their own faults, and of these only division refuses a precision. So a run under a
positive precision does not fail because of it, unless it is greater than any precision may be; what
hosts bind has to keep to the same. The main statement is `Law.lt_of_origin_execute`.
-/

namespace QuoteStack

/-- What has been wrapped, however often. -/
def Fault.origin : Fault → Fault
  | .external cause => cause.origin
  | fault => fault

theorem Fault.IsPlain.origin_eq {fault : Fault} (h : fault.IsPlain) : fault.origin = fault := by
  cases fault with
  | external cause => exact h.elim
  | _ => rfl

/-! ## Laws that builtin procedures keep to -/

/-- A law that allows all values, closures of all blocks, and the faults of builtin procedures. -/
structure Law.IsOpen (law : Law) : Prop where
  value : ∀ v, law.value v
  closure : ∀ name items, law.cell name (.external (.executeAll items))
  fault : ∀ fault size, fault.CanArise law.limits size → law.fault fault

/-- The builtin procedures keep to an open law. -/
theorem Law.IsOpen.isArithmetic {law : Law} (hopen : law.IsOpen) : law.criterion.IsArithmetic where
  toIsClosed := isClosed_criterion (fun _ => hopen.value _) (fun _ v _ => hopen.value v)
    (fun name items _ => hopen.closure name items)
    fun hraises => hopen.fault _ 0 (by cases hraises <;> trivial)
  number _ := hopen.value _
  name _ := trivial
  block _ := hopen.value _
  join _ _ := trivial
  operators _ _ := trivial
  context h := h _ rfl
  -- the operands are as large as they are
  arithmetic hcontext hresult :=
    hopen.fault (.arithmetic _) _
      (Operation.canArise_of_ofNumbers (Nat.le_refl _) (hcontext ▸ hresult))

/-- Native procedures keep to every law that is open to them. -/
theorem Procedure.IsNative.keeps {law : Law} (hopen : law.IsOpen) {body : Procedure}
    (h : body.IsNative) : body.Keeps law := by
  cases h with
  | builtin hmem =>
    rcases hopen.isArithmetic.of_mem_cells hmem with rfl | hkeeps
    · intro top?
      trivial
    · exact hkeeps
  | closure items => exact hopen.isArithmetic.executeAll fun v _ => hopen.value v

/-! ## The law of precisions -/

namespace Law

/-- The law of environments that hold procedures of a kind, and in which the precision is to blame
for no fault unless it is greater than any precision may be. -/
def ofPrecision (kind : Procedure → Prop) (limits : Limits) : Law where
  limits
  value _ := True
  cell _ cell := cell.Holds kind
  fault fault :=
    fault.IsPlain ∧ (fault = .arithmetic .precision → Decimal.maxPrecision < limits.precision)

variable {kind : Procedure → Prop} {limits : Limits}

theorem isSound_ofPrecision (hkind : ∀ body, kind body → body.Keeps (ofPrecision kind limits)) :
    (ofPrecision kind limits).IsSound where
  single _ _ := trivial
  items _ _ _ _ := trivial
  binding _ _ _ := trivial
  underflow := ⟨trivial, nofun⟩
  undefined _ := ⟨trivial, nofun⟩
  wrap _ hfault := Fault.wrap_of_isPlain hfault.1
  longLimit _ := ⟨trivial, nofun⟩
  stored _ _ _ := trivial
  program _ _ _ _ _ := trivial
  foreign _ _ _ _ _ := ⟨trivial, nofun⟩
  notACell _ _ _ := ⟨trivial, nofun⟩
  external _ body hbody := Or.inl (hkind body hbody)

/-- The law of a positive precision is open to native procedures, if closures are of the kind. -/
theorem isOpen_ofPrecision (hclosure : ∀ items, kind (.executeAll items))
    (hprecision : 1 ≤ limits.precision) : (ofPrecision kind limits).IsOpen where
  value _ := trivial
  closure _ items := hclosure items
  fault fault size h := by
    refine ⟨h.isPlain, ?_⟩
    rintro rfl
    obtain ⟨-, hlow | hhigh⟩ := h
    · have hless : limits.precision < 1 := hlow
      omega
    · exact hhigh

/-- Where procedures keep to the law of the precision, it is to blame for no fault of a run unless it
is greater than any precision may be. -/
theorem lt_of_origin_execute {m : Machine}
    (hkind : ∀ body, kind body → body.Keeps (ofPrecision kind m.root.limits))
    (hbinds : m.scope.Binds fun _ cell => cell.Holds kind) {program : List Instruction}
    {fault : Fault} (hfault : (m.execute program).fault? = some fault)
    (horigin : fault.origin = .arithmetic .precision) :
    Decimal.maxPrecision < m.root.limits.precision := by
  have hsound := isSound_ofPrecision hkind
  have hholds : (ofPrecision kind m.root.limits).Holds m.root.depth m :=
    ⟨rfl, fun _ _ => trivial, hbinds⟩
  rw [Machine.execute_eq] at hfault
  have hends : (ofPrecision kind m.root.limits).Ends m.root.depth
      (executeEach Machine.dispatcher program m) :=
    ends_each hsound (fun name m h => ends_dispatch hsound name h) (fun _ _ => trivial)
      (fun _ _ => ⟨trivial, nofun⟩) hholds
  -- a fault is plain, tells of the depth, or is wrapped around a plain one
  rcases hends.fault fault hfault with ⟨hplain, hblame⟩ | rfl | ⟨cause, rfl, hplain, hblame⟩
  · rw [hplain.origin_eq] at horigin
    exact hblame horigin
  · replace horigin : m.root.limits.depthFault.origin = .arithmetic .precision := horigin
    rw [Limits.depthFault] at horigin
    split at horigin <;> cases horigin
  · have hcause : cause.origin = .arithmetic .precision := horigin
    rw [hplain.origin_eq] at hcause
    exact hblame hcause

end Law

end QuoteStack
