import QuoteStack.Proofs.Run.Failure
import QuoteStack.Proofs.Run.Moment
import QuoteStack.Proofs.Value.Layout

/-!
The symbols that programs meet. A program text has words for symbols; joining words gives words, and
so are the names that closures are given. As long as a name is bound to a builtin procedure, to a
closure or to a value, no step of a run makes a symbol that is no word, so at every moment of a run
all symbols on the stacks are words, and the message of a fault is one line. The main statements are
`hasWords_of_reaches` and `hasWords_runProgram`.
-/

namespace QuoteStack

/-! ## Words -/

namespace Token

/-- Words make a word together. -/
theorem IsWord.append {first second : List Char} (h : IsWord first) (h' : IsWord second) :
    IsWord (first ++ second) := by
  match first, h with
  | c :: d :: rest, h =>
    refine ⟨h.1, fun e he => ?_⟩
    rcases List.mem_append.mp (show e ∈ (d :: rest) ++ second from he) with he | he
    · exact h.2 e he
    · exact isWordChar_of_isWord h' he

end Token

/-- The names of closures are words. -/
theorem Machine.isWord_nextName (m : Machine) : Token.IsWord m.nextName.toList := by
  have hdigits : ∀ c ∈ (toString m.root.minted).toList, Token.isWordChar c = true := by
    intro c hc
    rw [Nat.toString_eq_ofList_toDigits, String.toList_ofList] at hc
    unfold Token.isWordChar
    rw [Nat.isDigit_of_mem_toDigits (by decide) (by decide) hc, Bool.or_true]
  have hstart : ∀ c ∈ ['_', 'd', 'o'], Token.isWordChar c = true :=
    List.all_eq_true.mp (by decide)
  rw [nextName, String.toList_append]
  refine ⟨by decide, fun c hc => ?_⟩
  rcases List.mem_append.mp (show c ∈ ['_', 'd', 'o'] ++ (toString m.root.minted).toList from hc)
    with hc | hc
  · exact hstart c hc
  · exact hdigits c hc

theorem Value.IsLiteral.hasWords {v : Value} (h : v.IsLiteral) : v.HasWords := by
  induction h with
  | number _ _ _ => exact .number _
  | symbol hword => exact .symbol hword
  | block _ ih => exact .block ih

/-! ## Messages -/

theorem Token.IsWord.not_mem {name : List Char} (h : IsWord name) : '\n' ∉ name :=
  fun hmem => absurd (isWordChar_of_isWord h hmem) (by decide)

/-- Two texts of one line make one line. -/
theorem not_mem_append {first second : String} (h : '\n' ∉ first.toList)
    (h' : '\n' ∉ second.toList) : '\n' ∉ (first ++ second).toList := by
  rw [String.toList_append, List.mem_append, not_or]
  exact ⟨h, h'⟩

theorem not_mem_toString_nat (n : Nat) : '\n' ∉ (toString n).toList := by
  rw [Nat.toString_eq_ofList_toDigits, String.toList_ofList]
  exact fun hmem => absurd (Nat.isDigit_of_mem_toDigits (by decide) (by decide) hmem) (by decide)

theorem not_mem_toString_int (n : Int) : '\n' ∉ (toString n).toList := by
  cases n with
  | ofNat n => exact not_mem_toString_nat n
  | negSucc n => exact not_mem_append (by decide) (not_mem_toString_nat (n + 1))

namespace Fault

/-- The message of a fault is one line. -/
def IsLine (fault : Fault) : Prop :=
  '\n' ∉ fault.message.toList

theorem not_mem_withCode {code? : Option Code} {text : String} (h : '\n' ∉ text.toList) :
    '\n' ∉ (withCode code? text).toList := by
  have hcode : ∀ code : Code, '\n' ∉ ("[" ++ code.name ++ "] ").toList := by
    intro code
    cases code <;> decide
  cases code? with
  | none => exact h
  | some code => exact not_mem_append (hcode code) h

theorem isLine_undefinedSymbol {name : String} (h : Token.IsWord name.toList) :
    (undefinedSymbol name).IsLine :=
  not_mem_withCode (not_mem_append (by decide) h.not_mem)

theorem isLine_callDepth (limit : Text.ShortInteger) : (callDepth limit).IsLine :=
  not_mem_withCode
    (not_mem_append (not_mem_append (by decide) (not_mem_toString_int limit)) (by decide))

theorem isLine_longLimit : longLimit.IsLine :=
  not_mem_withCode
    (not_mem_append (not_mem_append (by decide) (not_mem_toString_nat _)) (by decide))

theorem isLine_depthFault (limits : Limits) : limits.depthFault.IsLine := by
  unfold Limits.depthFault
  split
  · exact isLine_callDepth _
  · exact isLine_longLimit

theorem isLine_stackUnderflow : stackUnderflow.IsLine :=
  not_mem_withCode (by decide)

theorem isLine_symbolOperands : symbolOperands.IsLine :=
  not_mem_withCode (by decide)

theorem isLine_arithmetic (fault : Decimal.ArithmeticFault) : (arithmetic fault).IsLine := by
  refine not_mem_withCode ?_
  cases fault <;> decide

theorem isLine_lengthMismatch (left right : Nat) : (lengthMismatch left right).IsLine :=
  not_mem_withCode (not_mem_append (not_mem_append (not_mem_append (not_mem_append (by decide)
    (not_mem_toString_nat left)) (by decide)) (not_mem_toString_nat right)) (by decide))

section
variable {v w : Value}

/-- Values of words are written on one line. -/
theorem not_mem_render (h : v.HasWords) : '\n' ∉ v.render.toList :=
  Value.not_mem_layout Value.isFaithful_plain h

theorem isLine_kindMismatch (hv : v.HasWords) (hw : w.HasWords) : (kindMismatch v w).IsLine :=
  not_mem_withCode (not_mem_append (not_mem_append (not_mem_append (by decide)
    (not_mem_render hv)) (by decide)) (not_mem_render hw))

theorem isLine_foldOfValue {name : String} (hname : Token.IsWord name.toList) (hv : v.HasWords) :
    (foldOfValue name v).IsLine :=
  not_mem_withCode (not_mem_append (not_mem_append (not_mem_append (by decide) hname.not_mem)
    (by decide)) (not_mem_render hv))

theorem isLine_foldOfNothing {name : String} (hname : Token.IsWord name.toList) :
    (foldOfNothing name).IsLine :=
  not_mem_withCode (not_mem_append (not_mem_append (by decide) hname.not_mem) (by decide))

theorem isLine_closureOfValue (hv : v.HasWords) : (closureOfValue v).IsLine :=
  not_mem_withCode (not_mem_append (by decide) (not_mem_render hv))

theorem isLine_notAPair (hv : v.HasWords) : (notAPair v).IsLine :=
  not_mem_withCode (not_mem_append (by decide) (not_mem_render hv))

theorem isLine_notABinding (hv : v.HasWords) : (notABinding v).IsLine :=
  not_mem_withCode (not_mem_append (by decide) (not_mem_render hv))

end

/-- Wrapping puts text before a message. -/
theorem IsLine.wrap {fault : Fault} (h : fault.IsLine) : fault.wrap.IsLine := by
  have hexternal : (external fault).IsLine := not_mem_withCode (not_mem_append (by decide) h)
  cases fault with
  | external cause => exact h
  | callDepth limit => exact h
  | _ => exact hexternal

end Fault

/-! ## Procedures -/

/-- A procedure that makes no symbols but words, and has one line to say when it fails, as long as
what it takes has no other symbols. -/
inductive Procedure.KeepsWords : Procedure → Prop where
  | done : KeepsWords .done
  | fail {fault : Fault} (hfault : fault.IsLine) : KeepsWords (.fail fault)
  | push {v : Value} {next : Procedure} (hv : v.HasWords) (h : KeepsWords next) :
      KeepsWords (.push v next)
  | pop {next : Value → Procedure} (h : ∀ v, v.HasWords → KeepsWords (next v)) :
      KeepsWords (.pop next)
  | peek {next : Option Value → Procedure} (h : ∀ v?, KeepsWords (next v?)) :
      KeepsWords (.peek next)
  | context {next : Decimal.Context → Procedure} (h : ∀ context, KeepsWords (next context)) :
      KeepsWords (.context next)
  | popBindings {next : List (String × Value) → Value → Procedure}
      (h : ∀ bindings v, (∀ name w, (name, w) ∈ bindings → w.HasWords) → v.HasWords →
        KeepsWords (next bindings v)) : KeepsWords (.popBindings next)
  | mint {next : String → Procedure}
      (h : ∀ name : String, Token.IsWord name.toList → KeepsWords (next name)) :
      KeepsWords (.mint next)
  | register {name : String} {cell : Cell} {next : Procedure}
      (hcell : cell.IsBasic Value.HasWords name) (h : KeepsWords next) :
      KeepsWords (.register name cell next)
  | execute {v : Value} {next : Procedure} (hv : v.HasWords) (h : KeepsWords next) :
      KeepsWords (.execute v next)
  | inChild {bindings : List (String × Value)} {body : Procedure} {next : List Value → Procedure}
      (hbindings : ∀ name w, (name, w) ∈ bindings → w.HasWords) (hbody : KeepsWords body)
      (h : ∀ values, (∀ v ∈ values, v.HasWords) → KeepsWords (next values)) :
      KeepsWords (.inChild bindings body next)
  | emit {event : Event} {next : Procedure} (h : KeepsWords next) : KeepsWords (.emit event next)

/-- What a builtin procedure raises about values of words is one line. -/
theorem Criterion.Raises.isLine {c : Criterion} (hvalue : ∀ v, c.value v → v.HasWords)
    (hname : ∀ name, c.name name → Token.IsWord name.toList) {fault : Fault} (h : c.Raises fault) :
    fault.IsLine := by
  cases h with
  | closureOfValue hv => exact Fault.isLine_closureOfValue (hvalue _ hv)
  | notAPair hv => exact Fault.isLine_notAPair (hvalue _ hv)
  | notABinding hv => exact Fault.isLine_notABinding (hvalue _ hv)
  | foldOfNothing h => exact Fault.isLine_foldOfNothing (hname _ h)
  | foldOfValue h hv => exact Fault.isLine_foldOfValue (hname _ h) (hvalue _ hv)
  | kindMismatch hv hw => exact Fault.isLine_kindMismatch (hvalue _ hv) (hvalue _ hw)
  | lengthMismatch left right => exact Fault.isLine_lengthMismatch left right
  | symbolOperands => exact Fault.isLine_symbolOperands

/-- The criterion of keeping words. -/
def Criterion.keepsWords : Criterion where
  procedure := Procedure.KeepsWords
  value := Value.HasWords
  name name := Token.IsWord name.toList

/-- The builtin procedures keep words: the operators have words for names, and words are joined to
words. -/
theorem Criterion.isArithmetic_keepsWords : keepsWords.IsArithmetic where
  symbol := .symbol
  items := Value.HasWords.items
  done := .done
  fail h := .fail (h.isLine (fun _ hv => hv) fun _ hname => hname)
  push := .push
  pop := .pop
  popBindings := .popBindings
  registerNew hitems _ h := .mint fun name hname => .register (.closure hitems) (h name hname)
  execute := .execute
  inChild := .inChild
  emit := .emit
  number := .number
  name h := by cases h with | symbol hword => exact hword
  block := .block
  join {first second} h h' := by
    show Token.IsWord (first ++ second).toList
    rw [String.toList_append]
    exact Token.IsWord.append h h'
  operators := show ∀ op ∈ Builtin.operators, Token.IsWord op.name.toList by decide
  context h := .context fun context => h context trivial
  arithmetic _ _ := .fail (Fault.isLine_arithmetic _)

/-- Every procedure that a program can find keeps words. -/
theorem Cell.IsBasic.keepsWords {name : String} {body : Procedure}
    (h : (Cell.external body).IsBasic Value.HasWords name) : body.KeepsWords := by
  cases h with
  | closure hitems => exact Criterion.isArithmetic_keepsWords.executeAll hitems
  | builtin hmem =>
    rcases Criterion.isArithmetic_keepsWords.of_mem_cells hmem with rfl | hkeeps
    · exact .peek fun top? => .emit (.emit .done)
    · exact hkeeps

/-! ## Moments -/

/-- All symbols on the stack are words, and names are bound to what programs can find. -/
structure Machine.HasWords (m : Machine) : Prop where
  stack : ∀ v ∈ m.stack, v.HasWords
  binds : m.scope.Binds fun name cell => cell.IsBasic Value.HasWords name

/-- The instruction is a value whose symbols are words. -/
def Instruction.HasWords : Instruction → Prop
  | .value v => v.HasWords
  | .foreign _ => False

/-- What is done makes no symbols but words, and a fault is one line. -/
def Activity.HasWords : Activity → Prop
  | .dispatch name => Token.IsWord name.toList
  | .finished fault? => ∀ fault, fault? = some fault → fault.IsLine
  | .cell name found => found.IsBasic Value.HasWords name
  | .value v => v.HasWords
  | .program instructions => ∀ instruction ∈ instructions, instruction.HasWords
  | .procedure body => body.KeepsWords

/-- What waits makes no symbols but words. -/
def Frame.HasWords : Frame → Prop
  | .dispatch _ => True
  | .program rest => ∀ instruction ∈ rest, instruction.HasWords
  | .procedure next => next.KeepsWords
  | .parent stack scope next => (∀ v ∈ stack, v.HasWords) ∧
      scope.Binds (fun name cell => cell.IsBasic Value.HasWords name) ∧
      ∀ values, (∀ v ∈ values, v.HasWords) → (next values).KeepsWords

/-- At the moment there are no symbols but words. -/
structure Moment.HasWords (s : Moment) : Prop where
  activity : s.activity.HasWords
  frames : ∀ frame ∈ s.frames, frame.HasWords
  machine : s.machine.HasWords

namespace Machine.HasWords

variable {m : Machine}

theorem restack (h : m.HasWords) {stack : List Value} (hstack : ∀ v ∈ stack, v.HasWords) :
    { m with stack }.HasWords :=
  ⟨hstack, h.binds⟩

theorem push (h : m.HasWords) {v : Value} (hv : v.HasWords) : (m.push v).HasWords :=
  h.restack (List.forall_mem_cons.mpr ⟨hv, h.stack⟩)

theorem onRoot (h : m.HasWords) (root : Root) : { m with root }.HasWords :=
  ⟨h.stack, h.binds⟩

theorem set (h : m.HasWords) {name : String} {cell : Cell}
    (hcell : cell.IsBasic Value.HasWords name) : (m.set name cell).HasWords :=
  ⟨h.stack, h.binds.set hcell⟩

theorem child (h : m.HasWords) {bindings : List (String × Value)}
    (hbindings : ∀ name w, (name, w) ∈ bindings → w.HasWords) : (m.child bindings).HasWords where
  stack _ hv := absurd hv List.not_mem_nil
  binds := binds_child h.binds fun name v hv => .binding (hbindings name v hv)

end Machine.HasWords

namespace Moment

variable {frames : List Frame} {m : Machine}

/-- Something has ended without a fault, and what waits makes no symbols but words. -/
theorem hasWords_finished (hframes : ∀ frame ∈ frames, frame.HasWords) (hm : m.HasWords) :
    Moment.HasWords ⟨.finished none, frames, m⟩ :=
  ⟨nofun, hframes, hm⟩

/-- Something has ended with a fault of one line. -/
theorem hasWords_failed (hframes : ∀ frame ∈ frames, frame.HasWords) (hm : m.HasWords)
    {fault : Fault} (hfault : fault.IsLine) :
    Moment.HasWords ⟨.finished (some fault), frames, m⟩ :=
  ⟨fun _ heq => Option.some.inj heq ▸ hfault, hframes, hm⟩

theorem hasWords_afterDispatch (hframes : ∀ frame ∈ frames, frame.HasWords) (hm : m.HasWords)
    {name : String} (hname : Token.IsWord name.toList) :
    (afterDispatch name frames m).HasWords := by
  unfold afterDispatch
  split
  · exact hasWords_failed hframes hm (Fault.isLine_undefinedSymbol hname)
  · next cell hfind =>
    split
    · exact hasWords_failed hframes hm (Fault.isLine_depthFault _)
    · exact ⟨hm.binds.found name cell hfind, List.forall_mem_cons.mpr ⟨trivial, hframes⟩,
        hm.onRoot _⟩

theorem hasWords_afterCell (hframes : ∀ frame ∈ frames, frame.HasWords) (hm : m.HasWords)
    {name : String} {cell : Cell} (hcell : cell.IsBasic Value.HasWords name) :
    (afterCell name cell frames m).HasWords := by
  rcases hcell.cases_of with ⟨body, rfl⟩ | ⟨v, rfl, hv⟩
  · exact ⟨hcell.keepsWords, hframes, hm.onRoot _⟩
  · exact hasWords_finished hframes (hm.push (.block (List.forall_mem_singleton.mpr hv)))

theorem hasWords_afterValue (hframes : ∀ frame ∈ frames, frame.HasWords) (hm : m.HasWords)
    {v : Value} (hv : v.HasWords) : (afterValue v frames m).HasWords := by
  cases hv with
  | number n =>
    exact hasWords_finished hframes
      (hm.push (.block (List.forall_mem_singleton.mpr (.number n))))
  | block hitems => exact hasWords_finished hframes (hm.push (.block hitems))
  | symbol hname => exact ⟨hname, hframes, hm⟩

theorem hasWords_afterProgram (hframes : ∀ frame ∈ frames, frame.HasWords) (hm : m.HasWords)
    {instructions : List Instruction}
    (hvalues : ∀ instruction ∈ instructions, instruction.HasWords) :
    (afterProgram instructions frames m).HasWords := by
  rcases instructions with _ | ⟨v | kind, rest⟩
  · exact hasWords_finished hframes hm
  · obtain ⟨hv, hrest⟩ := List.forall_mem_cons.mp hvalues
    exact ⟨hv, List.forall_mem_cons.mpr ⟨hrest, hframes⟩, hm⟩
  · exact (hvalues _ List.mem_cons_self).elim

/-- One operation of a procedure that keeps words. -/
theorem hasWords_afterProcedure (hframes : ∀ frame ∈ frames, frame.HasWords) (hm : m.HasWords)
    {body : Procedure} (hbody : body.KeepsWords) : (afterProcedure body frames m).HasWords := by
  cases hbody with
  | done => exact hasWords_finished hframes hm
  | fail hfault => exact hasWords_failed hframes hm hfault
  | push hv h => exact ⟨h, hframes, hm.push hv⟩
  | pop h =>
    obtain ⟨stack, scope, root⟩ := m
    cases stack with
    | nil => exact hasWords_failed hframes hm Fault.isLine_stackUnderflow
    | cons v rest =>
      obtain ⟨hv, hrest⟩ := List.forall_mem_cons.mp hm.stack
      exact ⟨h v hv, hframes, hm.restack hrest⟩
  | peek h => exact ⟨h _, hframes, hm⟩
  | context h => exact ⟨h _, hframes, hm⟩
  | popBindings h =>
    rw [afterProcedure]
    generalize hspan : Machine.spanBindings [] m.stack = split
    obtain ⟨bindings, rest⟩ := split
    obtain ⟨hpairs, hof⟩ := Machine.mem_of_spanBindings hspan
    -- what the names are to be bound to stood in the pairs, on the stack
    have hbindings : ∀ name w, (name, w) ∈ bindings → w.HasWords := by
      intro name w hw
      rcases hpairs name w hw with hnone | hpair
      · exact absurd hnone List.not_mem_nil
      · exact (hm.stack _ hpair).items w List.mem_cons_self
    cases rest with
    | nil =>
      exact hasWords_failed hframes (hm.restack fun v hv => absurd hv List.not_mem_nil)
        Fault.isLine_stackUnderflow
    | cons v rest =>
      obtain ⟨hv, hrest⟩ := List.forall_mem_cons.mp fun u hu => hm.stack u (hof u hu)
      exact ⟨h bindings v hbindings hv, hframes, hm.restack hrest⟩
  | mint h => exact ⟨h _ m.isWord_nextName, hframes, hm.onRoot _⟩
  | register hcell h => exact ⟨h, hframes, hm.set hcell⟩
  | execute hv h => exact ⟨hv, List.forall_mem_cons.mpr ⟨h, hframes⟩, hm⟩
  | inChild hbindings hbody h =>
    exact ⟨hbody, List.forall_mem_cons.mpr ⟨⟨hm.stack, hm.binds, h⟩, hframes⟩, hm.child hbindings⟩
  | emit h => exact ⟨h, hframes, hm.onRoot _⟩

theorem hasWords_afterEnd? (hframes : ∀ frame ∈ frames, frame.HasWords) (hm : m.HasWords)
    {fault? : Option Fault} (hfault : ∀ fault, fault? = some fault → fault.IsLine) {t : Moment}
    (h : afterEnd? fault? frames m = some t) : t.HasWords := by
  cases frames with
  | nil => cases h
  | cons frame frames =>
    obtain ⟨hframe, hrest⟩ := List.forall_mem_cons.mp hframes
    cases frame with
    | dispatch wraps =>
      obtain rfl := Option.some.inj h
      refine ⟨fun fault heq => ?_, hrest, hm.onRoot _⟩
      cases wraps with
      | false => exact hfault fault heq
      | true =>
        obtain ⟨cause, hcause, rfl⟩ := Option.map_eq_some_iff.mp heq
        exact (hfault cause hcause).wrap
    | program rest =>
      cases fault? <;> obtain rfl := Option.some.inj h
      · exact ⟨hframe, hrest, hm⟩
      · exact ⟨hfault, hrest, hm⟩
    | procedure next =>
      cases fault? <;> obtain rfl := Option.some.inj h
      · exact ⟨hframe, hrest, hm⟩
      · exact ⟨hfault, hrest, hm⟩
    | parent stack scope next =>
      obtain ⟨hstack, hbinds, hnext⟩ := hframe
      have hparent : Machine.HasWords ⟨stack, scope, m.root⟩ := ⟨hstack, hbinds⟩
      cases fault? <;> obtain rfl := Option.some.inj h
      · exact ⟨hnext _ hm.stack, hrest, hparent⟩
      · exact ⟨hfault, hrest, hparent⟩

/-- No step makes a symbol that is no word. -/
theorem HasWords.next {s t : Moment} (hs : s.HasWords) (h : s.next? = some t) : t.HasWords := by
  obtain ⟨activity, frames, m⟩ := s
  obtain ⟨hactivity, hframes, hm⟩ := hs
  cases activity with
  | dispatch name => exact Option.some.inj h ▸ hasWords_afterDispatch hframes hm hactivity
  | cell name cell => exact Option.some.inj h ▸ hasWords_afterCell hframes hm hactivity
  | value v => exact Option.some.inj h ▸ hasWords_afterValue hframes hm hactivity
  | program instructions => exact Option.some.inj h ▸ hasWords_afterProgram hframes hm hactivity
  | procedure body => exact Option.some.inj h ▸ hasWords_afterProcedure hframes hm hactivity
  | finished fault? => exact hasWords_afterEnd? hframes hm hactivity h

/-- A run that starts with words meets no other symbols. -/
theorem hasWords_of_reaches {s t : Moment} (hs : s.HasWords) (h : Reaches s t) : t.HasWords := by
  induction h with
  | refl => exact hs
  | tail _ hnext ih => exact ih.next hnext

end Moment

/-! ## Runs of program texts -/

/-- The moment at which the program of a text starts in a new root environment. -/
def Program.Reading.start (reading : Program.Reading Value) (limits : Limits) : Moment :=
  ⟨.program (reading.program.map .value), [],
    ((Machine.new limits).warn reading.warning?).emit (.started reading.program.length)⟩

theorem Machine.hasWords_new (limits : Limits) : (Machine.new limits).HasWords where
  stack _ hv := absurd hv List.not_mem_nil
  binds := binds_ofCells limits fun _ _ hmem => .builtin hmem

theorem Moment.hasWords_start {source : String} {reading : Program.Reading Value}
    (hread : Program.ofSource source = .ok reading) (limits : Limits) :
    (reading.start limits).HasWords := by
  have hliteral := Program.isLiteral_ofSource source
  rw [hread] at hliteral
  refine ⟨fun instruction hmem => ?_, fun frame hframe => absurd hframe List.not_mem_nil, ?_⟩
  · obtain ⟨v, hv, rfl⟩ := List.mem_map.mp hmem
    exact (hliteral v hv).hasWords
  · have hnew := Machine.hasWords_new limits
    unfold Program.Reading.start Machine.warn
    cases reading.warning? with
    | none => exact hnew.onRoot _
    | some warning => exact (hnew.onRoot _).onRoot _

/-- The end of a run of a program text has no symbols but words. -/
theorem Moment.hasWords_ended {source : String} {reading : Program.Reading Value}
    (hread : Program.ofSource source = .ok reading) (limits : Limits) :
    (ended [] ((((Machine.new limits).warn reading.warning?).emit
      (.started reading.program.length)).execute (reading.program.map .value))).HasWords :=
  hasWords_of_reaches (hasWords_start hread limits) (reaches_execute _ [] _)

/-- What a program text leaves on the stack of a new root environment has no symbols but words. -/
theorem Machine.hasWords_runProgram (limits : Limits) (source : String) :
    (runProgram limits source).machine.HasWords := by
  unfold runProgram evaluate
  cases hread : Program.ofSource source with
  | error fault => exact hasWords_new limits
  | ok reading => exact (Moment.hasWords_ended hread limits).machine

/-- The message of the fault of a program text is one line. -/
theorem Fault.isLine_of_runProgram {limits : Limits} {source : String} {fault : Fault}
    (h : (runProgram limits source).fault? = some fault) : fault.IsLine := by
  unfold runProgram Machine.evaluate at h
  have hread := Program.isLiteral_ofSource source
  cases hresult : Program.ofSource source with
  | error unread =>
    rw [hresult] at h hread
    obtain rfl := Option.some.inj h
    rw [hread.1]
    exact not_mem_withCode (by decide)
  | ok reading =>
    rw [hresult] at h
    exact (Moment.hasWords_ended hresult limits).activity fault h

/-- Where a name means the procedure that prints, dispatching it below the limit prints the text of
the top of the stack, and changes nothing else. -/
theorem Machine.dispatch_print {m : Machine} {name : String}
    (hfind : m.find? name = some (.external Builtin.print))
    (hless : (m.root.depth : Int) < m.root.limits.callLimit) :
    m.dispatch name =
      ⟨none, ((m.emit (.called name)).emit (.shown (Value.renderTop m.stack.head?))).emit
        (.printed (Value.renderTop m.stack.head?))⟩ := by
  rw [dispatch_of_room hfind hless]
  rfl

/-- Where the symbols are words, the text of the top of the stack is one line. -/
theorem Machine.HasWords.not_mem_renderTop {m : Machine} (h : m.HasWords) :
    '\n' ∉ (Value.renderTop m.stack.head?).toList := by
  cases htop : m.stack.head? with
  | none => decide
  | some v =>
    have hv := h.stack v (List.mem_of_mem_head? (Option.mem_def.mpr htop))
    exact Value.not_mem_layout Value.isFaithful_plain hv

end QuoteStack
