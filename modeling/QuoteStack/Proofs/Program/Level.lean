import QuoteStack.Journal

/-!
Levels of a program. A program text is a level of values, and a level may hold further levels
between marks, so it can be read by descending into each level where it opens. Reading with a list
of open levels comes to the same: what it still has to do at a token is to read the rest of the
current level and then of the levels around it. Beside the program this fixes what is left unread
and which warning is given, which depends on the marks alone.
-/

namespace QuoteStack.Program

/-! ## Reading by descent -/

/-- How a level that is read from tokens ends. -/
inductive LevelEnd (tokens : List Token) where
  /-- With the closing mark at an offset, which leaves some of the tokens behind it. -/
  | closed (offset : Nat) (rest : List Token) (shorter : rest.length < tokens.length)
  /-- With the tokens, while this many levels inside of it are open. -/
  | exhausted (inner : Nat)

/-- What is read as a level: its values in the order of reading, and how it ends. -/
structure Level (α : Type) (tokens : List Token) where
  values : List α
  stop : LevelEnd tokens

/-- The same end, seen from tokens further ahead. -/
def LevelEnd.seenFrom {tokens : List Token} (ahead : List Token) (h : tokens.length ≤ ahead.length) :
    LevelEnd tokens → LevelEnd ahead
  | .closed offset rest shorter => .closed offset rest (Nat.lt_of_lt_of_le shorter h)
  | .exhausted inner => .exhausted inner

/-- The level with more values before those of a level that is read further behind. -/
def Level.precede {α : Type} {tokens ahead : List Token} (values : List α)
    (h : tokens.length ≤ ahead.length) (level : Level α tokens) : Level α ahead :=
  ⟨values ++ level.values, level.stop.seenFrom ahead h⟩

section

variable {α : Type} (build : Builder α)

/-- Reads a level by descent: numbers, words and levels between marks, up to the closing mark of the
level or the end of the tokens. A level inside is stored as a block in reverse order of reading, and
one that is still open at the end is the last value of its level. -/
def readLevel (tokens : List Token) : Except Fault (Level α tokens) :=
  match tokens with
  | [] => .ok ⟨[], .exhausted 0⟩
  | token :: rest =>
    match token.kind with
    | .number =>
      match build.number token.text with
      | .ok v => (readLevel rest).map (.precede [v] (Nat.le_succ _))
      | .error fault => .error fault
    | .word => (readLevel rest).map (.precede [build.symbol token.text] (Nat.le_succ _))
    | .quoteOpen =>
      match readLevel rest with
      | .ok ⟨inner, .closed _ behind shorter⟩ =>
        (readLevel behind).map
          (.precede [build.block inner.reverse] (Nat.le_succ_of_le (Nat.le_of_lt shorter)))
      | .ok ⟨inner, .exhausted depth⟩ => .ok ⟨[build.block inner.reverse], .exhausted (depth + 1)⟩
      | .error fault => .error fault
    | .quoteClose => .ok ⟨[], .closed token.start rest (Nat.lt_succ_self _)⟩
    | .blank | .other _ => (readLevel rest).map (.precede [] (Nat.le_succ _))
termination_by tokens.length

/-- What reading a token makes of the current level and of the levels around it; nothing, where it
ends the program. -/
def advance (current : List α) (levels : List (List α)) (kind : TokenKind) (text : String) :
    Except Fault (Option (List α × List (List α))) :=
  match kind with
  | .number => (build.number text).map fun v => some (v :: current, levels)
  | .word => .ok (some (build.symbol text :: current, levels))
  | .quoteOpen => .ok (some ([], current :: levels))
  | .quoteClose =>
    match levels with
    | [] => .ok none
    | outer :: more => .ok (some (build.block current :: outer, more))
  | .blank | .other _ => .ok (some (current, levels))

/-- Tokens are read one by one. -/
theorem readFrom_cons_eq (current : List α) (levels : List (List α)) (token : Token)
    (rest : List Token) :
    readFrom build current levels (token :: rest) =
      match advance build current levels token.kind token.text with
      | .error fault => .error fault
      | .ok none => .ok ⟨current, rest, some (.strayClose token.start)⟩
      | .ok (some (current, levels)) => readFrom build current levels rest := by
  rw [readFrom.eq_def]
  unfold advance
  dsimp only
  cases token.kind with
  | number => cases build.number token.text <;> rfl
  | quoteClose => cases levels <;> rfl
  | word => rfl
  | quoteOpen => rfl
  | blank => rfl
  | other name => rfl

/-! ## Reading with a list of open levels -/

/-- Goes on behind a level of which the first values have been read before, with the levels around
it. -/
def Level.resume {tokens : List Token} (level : Level α tokens) (current : List α)
    (levels : List (List α)) : Except Fault (Reading α) :=
  match level.stop with
  | .exhausted inner =>
    let depth := levels.length + inner
    .ok ⟨closeAll build (level.values.reverse ++ current) levels, [],
      if depth = 0 then none else some (.unclosed depth)⟩
  | .closed offset rest _ =>
    match levels with
    | [] => .ok ⟨level.values.reverse ++ current, rest, some (.strayClose offset)⟩
    | outer :: more => readFrom build (build.block (level.values.reverse ++ current) :: outer) more rest

/-- Values read before a level come below it. -/
theorem resume_precede {tokens ahead : List Token} (values : List α)
    (h : tokens.length ≤ ahead.length) (level : Level α tokens) (current : List α)
    (levels : List (List α)) :
    (level.precede values h : Level α ahead).resume build current levels =
      level.resume build (values.reverse ++ current) levels := by
  obtain ⟨items, stop⟩ := level
  cases stop with
  | closed offset rest shorter =>
    simp only [Level.resume, Level.precede, LevelEnd.seenFrom, List.reverse_append,
      List.append_assoc]
  | exhausted inner =>
    simp only [Level.resume, Level.precede, LevelEnd.seenFrom, List.reverse_append,
      List.append_assoc]

/-- Reading on behind some values is reading the level that they stand before. -/
theorem bind_precede {rest ahead : List Token} (values : List α)
    (h : rest.length ≤ ahead.length) (result : Except Fault (Level α rest)) (current : List α)
    (levels : List (List α)) :
    ((result.map fun level => (level.precede values h : Level α ahead)).bind fun level =>
        level.resume build current levels) =
      result.bind fun level => level.resume build (values.reverse ++ current) levels := by
  cases result with
  | error fault => rfl
  | ok level => exact resume_precede build values h level current levels

/-- The list of open levels is what a descent has still to come back to: reading on is reading the
current level by descent, and then going on with the levels around it. -/
theorem readFrom_eq_resume (tokens : List Token) (current : List α)
    (levels : List (List α)) :
    readFrom build current levels tokens =
      (readLevel build tokens).bind fun level => level.resume build current levels := by
  induction hlength : tokens.length using Nat.strongRecOn generalizing tokens current levels with
  | _ length ih =>
    subst hlength
    cases tokens with
    | nil =>
      rw [readLevel, readFrom]
      cases levels <;> rfl
    | cons token rest =>
      have ihRest := ih rest.length (Nat.lt_succ_self _) rest
      rw [readLevel, readFrom_cons_eq]
      unfold advance
      cases token.kind with
      | number =>
        dsimp only
        cases build.number token.text with
        | error fault => rfl
        | ok v =>
          dsimp only
          rw [bind_precede]
          exact ihRest (v :: current) levels rfl
      | word =>
        rw [bind_precede]
        exact ihRest (build.symbol token.text :: current) levels rfl
      | quoteOpen =>
        -- the level inside is read first, with the current one as the nearest level around it
        dsimp only
        rw [ihRest [] (current :: levels) rfl]
        cases hinner : readLevel build rest with
        | error fault => rfl
        | ok level =>
          obtain ⟨inner, stop⟩ := level
          cases stop with
          | exhausted depth =>
            have hdepth : levels.length + 1 + depth = levels.length + (depth + 1) := by omega
            simp only [Except.bind, Level.resume, List.append_nil, closeAll, List.length_cons,
              hdepth]
            rfl
          | closed offset behind shorter =>
            rw [bind_precede]
            simp only [Except.bind, Level.resume, List.append_nil]
            exact ih behind.length (by simp; omega) behind (build.block inner.reverse :: current) levels rfl
      | quoteClose => cases levels <;> rfl
      | blank =>
        rw [bind_precede]
        exact ihRest current levels rfl
      | other name =>
        rw [bind_precede]
        exact ihRest current levels rfl

/-- The log records of a reading. -/
def Reading.log (reading : Reading α) : List Record :=
  Event.records .warning (reading.warning?.toList.map .warned)

end

end QuoteStack.Program
