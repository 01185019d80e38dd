import QuoteStack.CommandLine.Run
import QuoteStack.Proofs.Run.Words

/-!
What the written results of programs tell. On the stack that a program text leaves all symbols are
words, so its lines tell the stack, and so does its JSON; and each time a program prints in a run
that ends without a fault, it prints one line. The main statement is `output_lossless`.
-/

namespace QuoteStack.CommandLine

open Value

variable {values values' : List Value}

/-- The lines of values of words tell the values. -/
theorem render_lines_injective (hvalues : ∀ v ∈ values, v.HasWords)
    (hvalues' : ∀ v ∈ values', v.HasWords)
    (h : String.join (values.map fun v => v.render ++ "\n") =
      String.join (values'.map fun v => v.render ++ "\n")) : values = values' :=
  lines_injective isFaithful_plain hvalues hvalues' h

/-- The JSON array of values of words tells the values. -/
theorem toJson_block_injective (hvalues : ∀ v ∈ values, v.HasWords)
    (hvalues' : ∀ v ∈ values', v.HasWords)
    (h : (Value.block values).toJson = (Value.block values').toJson) : values = values' :=
  Value.block.inj (layout_injective isFaithful_jsonStyle (.block hvalues) (.block hvalues') h)

/-- What is written as JSON is the array of the values, with the line ended. -/
theorem eq_of_writeStack_json {jsonDepth : Nat} {output : String}
    (h : writeStack jsonDepth true values = .ok output) :
    output = (Value.block values).toJson ++ "\n" := by
  rw [writeStack, if_pos rfl] at h
  split at h
  · exact (Except.ok.inj h).symm
  · cases h

/-- What the command writes of values of words tells the values, as lines and as JSON. -/
theorem writeStack_injective (hvalues : ∀ v ∈ values, v.HasWords)
    (hvalues' : ∀ v ∈ values', v.HasWords) {jsonDepth jsonDepth' : Nat} {json : Bool}
    {output : String} (h : writeStack jsonDepth json values = .ok output)
    (h' : writeStack jsonDepth' json values' = .ok output) : values = values' := by
  cases json with
  | false => exact render_lines_injective hvalues hvalues' (Except.ok.inj (h.trans h'.symm))
  | true =>
    have hsame := congrArg String.toList
      ((eq_of_writeStack_json h).symm.trans (eq_of_writeStack_json h'))
    rw [String.toList_append, String.toList_append] at hsame
    exact toJson_block_injective hvalues hvalues'
      (String.toList_injective (List.append_cancel_right hsame))

/-- The values that a program text leaves have no symbols but words. -/
theorem hasWords_of_mem_values (limits : Limits) (source : String) :
    ∀ v ∈ (runProgram limits source).machine.values, v.HasWords :=
  fun v hv => (Machine.hasWords_runProgram limits source).stack v (List.mem_reverse.mp hv)

/-- A run of a program text without a fault prints one line each time it prints. -/
theorem one_line_of_dispatch {limits : Limits} {source : String} {reading : Program.Reading Value}
    (hread : Program.ofSource source = .ok reading)
    (hok : (runProgram limits source).fault? = none) {s : Moment}
    (h : Moment.Reaches (reading.start limits) s) {name : String}
    (hs : s.activity = .dispatch name)
    (hprint : s.machine.find? name = some (.external Builtin.print)) :
    ∃ line : String, '\n' ∉ line.toList ∧ s.machine.dispatch name =
      ⟨none, ((s.machine.emit (.called name)).emit (.shown line)).emit (.printed line)⟩ := by
  rw [runProgram, Machine.evaluate, hread] at hok
  obtain ⟨-, hless⟩ := Moment.dispatch_of_succeeded hok h hs
  have hwords := (Moment.hasWords_of_reaches (Moment.hasWords_start hread limits) h).machine
  exact ⟨_, hwords.not_mem_renderTop, Machine.dispatch_print hprint hless⟩

/-- The results of programs are written without loss. On the stack that a program text leaves, all
symbols are words, and numbers are never anything but a sign, digits and an exponent. So two stacks
are the same as soon as their lines are, or their JSON is, or what the command writes of them in one
of the two ways. And each time a program prints in a run without a fault, the text has no line feed,
and it is what is logged, printed and added to what has happened before. -/
theorem output_lossless :
    (∀ limits source, ∀ v ∈ (runProgram limits source).machine.values, v.HasWords) ∧
    (∀ limits limits' source source',
      let values := (runProgram limits source).machine.values
      let values' := (runProgram limits' source').machine.values
      (String.join (values.map fun v => v.render ++ "\n") =
          String.join (values'.map fun v => v.render ++ "\n") ↔ values = values') ∧
        ((Value.block values).toJson = (Value.block values').toJson ↔ values = values') ∧
        ∀ jsonDepth jsonDepth' json output, writeStack jsonDepth json values = .ok output →
          writeStack jsonDepth' json values' = .ok output → values = values') ∧
    ∀ limits source reading, Program.ofSource source = .ok reading →
      (runProgram limits source).fault? = none →
        ∀ s, Moment.Reaches (reading.start limits) s → ∀ name, s.activity = .dispatch name →
          s.machine.find? name = some (.external Builtin.print) →
            ∃ line : String, '\n' ∉ line.toList ∧ s.machine.dispatch name =
              ⟨none, ((s.machine.emit (.called name)).emit (.shown line)).emit (.printed line)⟩ := by
  refine ⟨hasWords_of_mem_values, fun limits limits' source source' => ?_,
    fun limits source reading hread hok s hreach name hs hprint =>
      one_line_of_dispatch hread hok hreach hs hprint⟩
  have hvalues := hasWords_of_mem_values limits source
  have hvalues' := hasWords_of_mem_values limits' source'
  refine ⟨⟨render_lines_injective hvalues hvalues', fun h => ?_⟩,
    ⟨toJson_block_injective hvalues hvalues', fun h => ?_⟩,
    fun jsonDepth jsonDepth' json output => writeStack_injective hvalues hvalues'⟩
  · rw [h]
  · rw [h]

/-- A program that prints a block of a symbol and a number prints one line. -/
theorem output_lossless_of_block :
    let source := "dbg \x7bxs 1.50\x7d"
    let block : Value := .block [.number ⟨false, 150, -2⟩, .symbol "xs"]
    let reading : Program.Reading Value := ⟨[block, .symbol "dbg"], [], none⟩
    let limits : Limits := { maxDepth := 7 }
    let s : Moment :=
      ⟨.dispatch "dbg", [.program []], ((Machine.new limits).emit (.started 2)).push block⟩
    Program.ofSource source = .ok reading ∧ (runProgram limits source).fault? = none ∧
      Moment.Reaches (reading.start limits) s ∧
      s.machine.find? "dbg" = some (.external Builtin.print) ∧
      Value.renderTop s.machine.stack.head? = "[1.50, xs]" ∧
      ∃ line : String, '\n' ∉ line.toList ∧ s.machine.dispatch "dbg" =
        ⟨none, ((s.machine.emit (.called "dbg")).emit (.shown line)).emit (.printed line)⟩ := by
  intro source block reading limits s
  have hread : Program.ofSource source = .ok reading :=
    Program.ofSource_of_text (by decide) (by decide)
  have hok : (runProgram limits source).fault? = none := by
    rw [runProgram, Machine.evaluate, hread]
    exact Option.isNone_iff_eq_none.mp (by decide)
  have hreach : Moment.Reaches (reading.start limits) s :=
    .step rfl (.step rfl (.step rfl (.step rfl (.step rfl (.refl _)))))
  have hprint : s.machine.find? "dbg" = some (.external Builtin.print) := rfl
  exact ⟨hread, hok, hreach, hprint, by decide +kernel,
    output_lossless.2.2 limits source reading hread hok s hreach "dbg" rfl hprint⟩

end QuoteStack.CommandLine
