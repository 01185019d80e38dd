import Mathlib.Data.List.Basic
import QuoteStack.Logging.Hub

/-!
Logging over any history. Whatever has been set up, asked for, attached, redirected and logged so
far, a record that passes is written once by each attached handler, in their order, and by nobody
else; a handler of somebody else stays attached; and a handler that was replaced by another set-up
never writes again. The main statement is `logging_over_history`.
-/

namespace QuoteStack.Logging

/-! ## Forms -/

/-- In the standard form a line can be written for every record. -/
theorem Format.fill?_standard (particulars : Particulars) (record : Record) :
    Format.standard.fill? particulars record =
      some (particulars.time record ++ " " ++ record.logger ++ " " ++ record.severity.name ++ " " ++
        record.message) := by
  have htext (text : List Char) :
      Style.writeText? particulars.maxLength text .plain = some text := by
    simp [Style.writeText?, Style.plain, Style.pad, Style.cut]
  have hplace (name : String) (text : List Char)
      (hwriter : particulars.writer? record name.toList =
        some (Style.writeText? particulars.maxLength text)) :
      fillPiece particulars record (.mark ⟨some name.toList, .plain⟩) = some text := by
    rw [fillPiece, hwriter]
    exact htext text
  have htime := hplace "asctime" (particulars.time record).toList rfl
  have hlogger := hplace "name" record.logger.toList rfl
  have hlevel := hplace "levelname" record.severity.name.toList rfl
  have hmessage := hplace "message" record.message.toList rfl
  have hspace : fillPiece particulars record (.char ' ') = some [' '] := rfl
  simp only [fill?, standard, List.mapM_cons, List.mapM_nil, htime, hlogger, hlevel, hmessage,
    hspace, Option.bind_eq_bind, Option.bind_some, Option.pure_def, Option.map_some]
  refine congrArg some (String.toList_injective ?_)
  simp

/-! ## Histories -/

/-- What can be done with logging. -/
inductive Action where
  /-- Sets up logging, on a stream or on that for errors. -/
  | configure (level : LevelForm) (format? : Option String) (stream? : Option Nat)
  /-- Asks for a logger. -/
  | request
  /-- Attaches a handler of somebody else. -/
  | attach (stream : Nat)
  /-- Has errors reported on another stream. -/
  | redirect (stream : Nat)
  /-- Logs a record. -/
  | log (record : Record)

namespace Action

/-- Setting up with a text that describes no form of log lines is not accepted; any level is. -/
def IsAccepted : Action → Prop
  | .configure _ format? _ => ∃ format, Hub.formatOf format? = .ok format
  | _ => True

/-- Whether logging is set up. -/
def isSetup : Action → Bool
  | .configure _ _ _ => true
  | _ => false

end Action

namespace Handler

/-- The stream that a handler writes lines to. -/
def stream? : Handler → Option Nat
  | .silent => none
  | .own stream _ => some stream
  | .foreign stream => some stream

/-- Whether a handler keeps silent. -/
def isSilent : Handler → Bool
  | .silent => true
  | _ => false

/-- Whether a handler was made by setting up. -/
def isOwn : Handler → Bool
  | .own _ _ => true
  | _ => false

/-- Whether a handler was attached by somebody else. -/
def isForeign : Handler → Bool
  | .foreign _ => true
  | _ => false

theorem not_isReplaced (handler : Handler) : (!handler.isReplaced) = handler.isForeign := by
  cases handler <;> rfl

/-- What a handler has written to a stream for a record: its line if the stream is its own, and a
report on the stream for errors if there is no line. -/
def textFor? (particulars : Particulars) (errorStream : Nat) (record : Record) (s : Nat) :
    Handler → Option String
  | .silent => none
  | .own stream format =>
    match format.fill? particulars record with
    | some line => if stream = s then some (line ++ "\n") else none
    | none => if errorStream = s then some (particulars.report record) else none
  | .foreign stream => if stream = s then some (record.message ++ "\n") else none

theorem textFor?_eq (particulars : Particulars) (errorStream : Nat) (record : Record) (s : Nat)
    (handler : Handler) :
    handler.textFor? particulars errorStream record s =
      (handler.output? particulars errorStream record).bind fun output =>
        if output.1 = s then some output.2 else none := by
  cases handler with
  | silent => rfl
  | foreign stream => rfl
  | own stream format =>
    simp only [textFor?, output?]
    cases format.fill? particulars record <;> rfl

/-- A handler writes nothing to a stream that is not its own, if it has a line. -/
theorem textFor?_eq_none {particulars : Particulars} {errorStream : Nat} {record : Record} {s : Nat}
    {handler : Handler} (hstream : handler.stream? ≠ some s)
    (hline : s = errorStream → ∀ stream format, handler = .own stream format →
      (format.fill? particulars record).isSome) :
    handler.textFor? particulars errorStream record s = none := by
  cases handler with
  | silent => rfl
  | foreign stream => exact if_neg fun heq => hstream (congrArg some heq)
  | own stream format =>
    simp only [textFor?]
    cases hfill : format.fill? particulars record with
    | some line => exact if_neg fun heq => hstream (congrArg some heq)
    | none =>
      refine if_neg fun heq => ?_
      have hsome := hline heq.symm stream format rfl
      rw [hfill] at hsome
      cases hsome

end Handler

namespace Hub

variable (particulars : Particulars)

/-- The state after an action; a fault does not undo what was done before it. -/
def act (hub : Hub) : Action → Hub
  | .configure level format? stream? => (hub.configure level format? stream?).2
  | .request => hub.request
  | .attach stream => hub.attach stream
  | .redirect stream => hub.redirect stream
  | .log record => (hub.log particulars record).2

/-- The state after some actions. -/
def after (hub : Hub) (actions : List Action) : Hub :=
  actions.foldl (act particulars) hub

theorem after_append (hub : Hub) (actions more : List Action) :
    hub.after particulars (actions ++ more) =
      (hub.after particulars actions).after particulars more :=
  List.foldl_append

/-- The handlers of others. -/
def foreigns (hub : Hub) : List Handler :=
  hub.handlers.filter Handler.isForeign

/-- The handlers made by setting up. -/
def owns (hub : Hub) : List Handler :=
  hub.handlers.filter Handler.isOwn

/-- The handlers that keep silent. -/
def silents (hub : Hub) : List Handler :=
  hub.handlers.filter Handler.isSilent

/-- The texts that the attached handlers have for a stream, in the order of the handlers. -/
def textsFor (hub : Hub) (record : Record) (s : Nat) : List String :=
  hub.handlers.filterMap (·.textFor? particulars hub.errorStream record s)

/-- There is a line for a record in the form of each handler that has one. -/
def HasLines (hub : Hub) (record : Record) : Prop :=
  ∀ stream format, .own stream format ∈ hub.handlers → (format.fill? particulars record).isSome

/-- No attached handler has the stream. -/
def IsFree (hub : Hub) (s : Nat) : Prop :=
  ∀ handler ∈ hub.handlers, handler.stream? ≠ some s

/-- An action does not bring a stream into use: it attaches no handler to it, and has nothing
reported on it. -/
def Spares (hub : Hub) (s : Nat) : Action → Prop
  | .configure _ _ stream? => stream?.getD hub.errorStream ≠ s
  | .attach stream => stream ≠ s
  | .log record => s = hub.errorStream → hub.HasLines particulars record
  | _ => True

/-! ## Writing -/

/-- A stream gets the texts that are for it, in order. -/
theorem foldl_write_apply (outputs : List (Nat × String)) (written : Nat → String) (s : Nat) :
    outputs.foldl write written s =
      written s ++ String.join
        (outputs.filterMap fun output => if output.1 = s then some output.2 else none) := by
  induction outputs generalizing written with
  | nil => exact String.append_empty.symm
  | cons output rest ih =>
    rw [List.foldl_cons, ih, List.filterMap_cons, write]
    by_cases hs : output.1 = s
    · rw [if_pos hs, if_pos hs.symm, String.join_cons, String.append_assoc]
    · rw [if_neg hs, if_neg (Ne.symm hs)]

theorem written_outputs (hub : Hub) (record : Record) (s : Nat) :
    (hub.handlers.filterMap (·.output? particulars hub.errorStream record)).foldl write
        hub.written s =
      hub.written s ++ String.join (hub.textsFor particulars record s) := by
  rw [foldl_write_apply, List.filterMap_filterMap, textsFor]
  simp only [Handler.textFor?_eq]

/-! ## What an action does to the handlers -/

theorem filter_not_isReplaced (hub : Hub) :
    (hub.handlers.filter fun handler => !handler.isReplaced) = hub.foreigns :=
  List.filter_congr fun handler _ => handler.not_isReplaced

/-- Setting up leaves the handlers of others, in their order, and one of its own, whether the level
can be read or not; nothing is written. -/
theorem configure_of_formatOf (hub : Hub) (level : LevelForm) {format? : Option String}
    {format : Format} (hformat : formatOf format? = .ok format) (stream? : Option Nat) :
    (hub.configure level format? stream?).2.handlers =
        hub.foreigns ++ [.own (stream?.getD hub.errorStream) format] ∧
      (hub.configure level format? stream?).2.written = hub.written := by
  unfold configure
  rw [hformat]
  dsimp only
  cases readLevel .warning level <;> exact ⟨congrArg (· ++ _) hub.filter_not_isReplaced, rfl⟩

/-- A text with a mark for a field in it describes a form. -/
theorem exists_formatOf {text : String} (h : Mark.occursIn text.toList = true) :
    ∃ format, formatOf (some text) = .ok format := by
  simp only [formatOf, Option.getD_some, Format.ofText?, h, if_true]
  split <;> exact ⟨_, rfl⟩

/-- A logger with handlers is not given another one. -/
theorem request_eq {hub : Hub} (h : hub.handlers ≠ []) : hub.request = hub := by
  unfold request
  rw [if_neg (by rwa [List.isEmpty_iff])]

/-- Logging a record that passes: each attached handler writes its text, unless the level cannot be
written. -/
theorem log_of_passes {hub : Hub} (h : hub.handlers ≠ []) {record : Record}
    (hpasses : hub.passes record = true) :
    hub.log particulars record =
      if Text.IsShort record.severity then
        (none, { hub with
          written := fun s => hub.written s ++ String.join (hub.textsFor particulars record s) })
      else (some .longLevel, hub) := by
  have hsame := request_eq h
  by_cases hshort : Text.IsShort record.severity
  · simp only [log, hsame, hpasses, hshort, Bool.not_true, Bool.false_eq_true, if_false, not_true,
      if_true, ← written_outputs]
  · simp only [log, hsame, hpasses, hshort, Bool.not_true, Bool.false_eq_true, if_false,
      not_false_iff, if_true]

/-- Logging a record changes nothing but what has been written, and that only where handlers write. -/
theorem log_eq {hub : Hub} (h : hub.handlers ≠ []) (record : Record) :
    ∃ written, (hub.log particulars record).2 = { hub with written } ∧
      ∀ s, hub.IsFree s → hub.Spares particulars s (.log record) → written s = hub.written s := by
  by_cases hpasses : hub.passes record = true
  · rw [log_of_passes particulars h hpasses]
    split
    · refine ⟨_, rfl, fun s hfree hspares => ?_⟩
      have hnone : hub.textsFor particulars record s = [] := by
        refine List.filterMap_eq_nil_iff.mpr fun handler hhandler => ?_
        refine Handler.textFor?_eq_none (hfree handler hhandler) fun hs stream format hown => ?_
        exact hspares hs stream format (hown ▸ hhandler)
      rw [hnone]
      exact String.append_empty
    · exact ⟨hub.written, rfl, fun s _ _ => rfl⟩
  · rw [Bool.not_eq_true] at hpasses
    refine ⟨hub.written, ?_, fun s _ _ => rfl⟩
    have hsame := request_eq h
    simp only [log, hsame, hpasses, Bool.not_false, if_true]

/-! ## The invariant -/

/-- What is true at any time: there are handlers, of which at most one was made by setting up, and at
most one keeps silent. -/
structure IsSound (hub : Hub) : Prop where
  nonempty : hub.handlers ≠ []
  own : hub.owns.length ≤ 1
  silent : hub.silents.length ≤ 1

/-- So it is at the beginning, when nothing but a silent handler is attached. -/
theorem isSound_new : IsSound {} :=
  ⟨List.cons_ne_nil _ _, Nat.zero_le 1, Nat.le_refl 1⟩

/-- It is a matter of the handlers alone. -/
theorem IsSound.of_handlers_eq {hub hub' : Hub} (h : hub.IsSound)
    (hhandlers : hub'.handlers = hub.handlers) : hub'.IsSound := by
  refine ⟨hhandlers ▸ h.nonempty, ?_, ?_⟩
  · unfold owns
    exact hhandlers ▸ h.own
  · unfold silents
    exact hhandlers ▸ h.silent

section
variable {hub : Hub}

/-- Handlers of others only are neither made by setting up nor silent. -/
theorem filter_foreigns_append {p : Handler → Bool} (hforeign : ∀ s, p (.foreign s) = false)
    (handler : Handler) :
    (hub.foreigns ++ [handler]).filter p = [handler].filter p := by
  have hnone : hub.foreigns.filter p = [] := by
    refine List.filter_eq_nil_iff.mpr fun other hother => ?_
    cases other with
    | foreign s => simp [hforeign s]
    | silent => exact absurd (List.mem_filter.mp hother).2 (by decide)
    | own s format => exact absurd (List.mem_filter.mp hother).2 Bool.false_ne_true
  rw [List.filter_append, hnone, List.nil_append]

/-- After a set-up its handler is the only one that was made so, and none is silent. -/
theorem owns_silents_configure (hub : Hub) (level : LevelForm) {format? : Option String}
    {format : Format} (hformat : formatOf format? = .ok format) (stream? : Option Nat) :
    (hub.configure level format? stream?).2.owns =
        [.own (stream?.getD hub.errorStream) format] ∧
      (hub.configure level format? stream?).2.silents = [] := by
  unfold owns silents
  rw [(configure_of_formatOf hub level hformat stream?).1, filter_foreigns_append fun _ => rfl,
    filter_foreigns_append fun _ => rfl]
  exact ⟨rfl, rfl⟩

theorem owns_attach (stream : Nat) : (hub.attach stream).owns = hub.owns :=
  (List.filter_append _ _).trans (List.append_nil _)

theorem silents_attach (stream : Nat) : (hub.attach stream).silents = hub.silents :=
  (List.filter_append _ _).trans (List.append_nil _)

theorem IsSound.configure (_ : hub.IsSound) (level : LevelForm) {format? : Option String}
    {format : Format} (hformat : formatOf format? = .ok format) (stream? : Option Nat) :
    (hub.configure level format? stream?).2.IsSound := by
  obtain ⟨hown, hsilent⟩ := owns_silents_configure hub level hformat stream?
  refine ⟨?_, ?_, ?_⟩
  · rw [(configure_of_formatOf hub level hformat stream?).1]
    exact List.append_ne_nil_of_right_ne_nil _ (List.cons_ne_nil _ _)
  · rw [hown]
    exact Nat.le_refl 1
  · rw [hsilent]
    exact Nat.zero_le 1

theorem IsSound.attach (h : hub.IsSound) (stream : Nat) : (hub.attach stream).IsSound := by
  refine ⟨List.append_ne_nil_of_right_ne_nil _ (List.cons_ne_nil _ _), ?_, ?_⟩
  · rw [owns_attach]
    exact h.own
  · rw [silents_attach]
    exact h.silent

/-- An action other than setting up and attaching leaves the handlers alone, and none but logging
writes. -/
theorem handlers_log (h : hub.IsSound) (record : Record) :
    (hub.log particulars record).2.handlers = hub.handlers := by
  obtain ⟨written, heq, -⟩ := log_eq particulars h.nonempty record
  rw [heq]

theorem IsSound.act (h : hub.IsSound) {action : Action} (haccepted : action.IsAccepted) :
    (hub.act particulars action).IsSound := by
  cases action with
  | configure level format? stream? =>
    obtain ⟨format, hformat⟩ := haccepted
    exact h.configure level hformat stream?
  | request =>
    show hub.request.IsSound
    rw [request_eq h.nonempty]
    exact h
  | attach stream => exact h.attach stream
  | redirect stream => exact h.of_handlers_eq rfl
  | log record => exact h.of_handlers_eq (handlers_log particulars h record)

theorem IsSound.after (h : hub.IsSound) {actions : List Action}
    (haccepted : ∀ action ∈ actions, action.IsAccepted) :
    (hub.after particulars actions).IsSound := by
  induction actions generalizing hub with
  | nil => exact h
  | cons action rest ih =>
    obtain ⟨hfirst, hrest⟩ := List.forall_mem_cons.mp haccepted
    exact ih (h.act particulars hfirst) hrest

/-! ## What later actions keep -/

/-- The handlers of others stay, with new ones behind them. -/
theorem foreigns_prefix_act (h : hub.IsSound) {action : Action} (haccepted : action.IsAccepted) :
    hub.foreigns <+: (hub.act particulars action).foreigns := by
  cases action with
  | configure level format? stream? =>
    obtain ⟨format, hformat⟩ := haccepted
    show hub.foreigns <+: (hub.configure level format? stream?).2.handlers.filter Handler.isForeign
    rw [(configure_of_formatOf hub level hformat stream?).1, List.filter_append]
    unfold foreigns
    rw [List.filter_filter]
    simp only [Bool.and_self]
    exact List.prefix_append _ _
  | request =>
    show hub.foreigns <+: hub.request.foreigns
    exact congrArg Hub.foreigns (request_eq h.nonempty).symm ▸ List.prefix_refl _
  | attach stream =>
    show hub.foreigns <+: (hub.handlers ++ [Handler.foreign stream]).filter Handler.isForeign
    rw [List.filter_append]
    exact List.prefix_append _ _
  | redirect stream => exact List.prefix_refl _
  | log record =>
    show hub.foreigns <+: (hub.log particulars record).2.handlers.filter Handler.isForeign
    rw [handlers_log particulars h]
    exact List.prefix_refl _

theorem foreigns_prefix_after (h : hub.IsSound) {actions : List Action}
    (haccepted : ∀ action ∈ actions, action.IsAccepted) :
    hub.foreigns <+: (hub.after particulars actions).foreigns := by
  induction actions generalizing hub with
  | nil => exact List.prefix_refl _
  | cons action rest ih =>
    obtain ⟨hfirst, hrest⟩ := List.forall_mem_cons.mp haccepted
    exact (foreigns_prefix_act particulars h hfirst).trans (ih (h.act particulars hfirst) hrest)

/-- Handlers made by setting up and silent ones come and go only by setting up. -/
theorem owns_silents_act (h : hub.IsSound) {action : Action} (hsetup : action.isSetup = false) :
    (hub.act particulars action).owns = hub.owns ∧
      (hub.act particulars action).silents = hub.silents := by
  cases action with
  | configure level format? stream? => cases hsetup
  | request =>
    show hub.request.owns = _ ∧ hub.request.silents = _
    rw [request_eq h.nonempty]
    exact ⟨rfl, rfl⟩
  | attach stream => exact ⟨owns_attach stream, silents_attach stream⟩
  | redirect stream => exact ⟨rfl, rfl⟩
  | log record =>
    show (hub.log particulars record).2.owns = _ ∧ (hub.log particulars record).2.silents = _
    unfold owns silents
    rw [handlers_log particulars h]
    exact ⟨rfl, rfl⟩

theorem owns_silents_after (h : hub.IsSound) {actions : List Action}
    (haccepted : ∀ action ∈ actions, action.IsAccepted)
    (hsetup : ∀ action ∈ actions, action.isSetup = false) :
    (hub.after particulars actions).owns = hub.owns ∧
      (hub.after particulars actions).silents = hub.silents := by
  induction actions generalizing hub with
  | nil => exact ⟨rfl, rfl⟩
  | cons action rest ih =>
    obtain ⟨haccepted, haccepted'⟩ := List.forall_mem_cons.mp haccepted
    obtain ⟨hfirst, hrest⟩ := List.forall_mem_cons.mp hsetup
    obtain ⟨hown, hsilent⟩ := ih (h.act particulars haccepted) haccepted' hrest
    obtain ⟨hown', hsilent'⟩ := owns_silents_act particulars h hfirst
    exact ⟨hown.trans hown', hsilent.trans hsilent'⟩

/-- A set-up on another stream frees a stream that no handler of others has. -/
theorem isFree_configure {s : Nat} (hforeign : .foreign s ∉ hub.handlers) (level : LevelForm)
    {format? : Option String} {format : Format} (hformat : formatOf format? = .ok format)
    {stream? : Option Nat} (hstream : stream?.getD hub.errorStream ≠ s) :
    (hub.configure level format? stream?).2.IsFree s := by
  unfold IsFree
  rw [(configure_of_formatOf hub level hformat stream?).1]
  intro handler hhandler hs
  rcases List.mem_append.mp hhandler with hhandler | hhandler
  · obtain ⟨hmem, hisForeign⟩ := List.mem_filter.mp hhandler
    cases handler with
    | silent => cases hs
    | own stream format => cases hisForeign
    | foreign stream => exact hforeign (Option.some.inj hs ▸ hmem)
  · obtain rfl := List.mem_singleton.mp hhandler
    exact hstream (Option.some.inj hs)

/-- An action that does not bring a free stream into use leaves it free, and its text alone. -/
theorem isFree_act (h : hub.IsSound) {s : Nat} (hfree : hub.IsFree s) {action : Action}
    (haccepted : action.IsAccepted) (hspares : hub.Spares particulars s action) :
    (hub.act particulars action).IsFree s ∧
      (hub.act particulars action).written s = hub.written s := by
  cases action with
  | configure level format? stream? =>
    obtain ⟨format, hformat⟩ := haccepted
    refine ⟨isFree_configure (fun hmem => hfree _ hmem rfl) level hformat hspares, ?_⟩
    exact congrFun (configure_of_formatOf hub level hformat stream?).2 s
  | request =>
    show hub.request.IsFree s ∧ hub.request.written s = _
    rw [request_eq h.nonempty]
    exact ⟨hfree, rfl⟩
  | attach stream =>
    refine ⟨fun handler hhandler hs => ?_, rfl⟩
    rcases List.mem_append.mp hhandler with hhandler | hhandler
    · exact hfree handler hhandler hs
    · obtain rfl := List.mem_singleton.mp hhandler
      exact hspares (Option.some.inj hs)
  | redirect stream => exact ⟨hfree, rfl⟩
  | log record =>
    obtain ⟨written, heq, hsame⟩ := log_eq particulars h.nonempty record
    show (hub.log particulars record).2.IsFree s ∧ (hub.log particulars record).2.written s = _
    rw [heq]
    exact ⟨hfree, hsame s hfree hspares⟩

theorem written_after (h : hub.IsSound) {s : Nat} (hfree : hub.IsFree s) {actions : List Action}
    (haccepted : ∀ action ∈ actions, action.IsAccepted)
    (hspares : ∀ earlier action later, actions = earlier ++ action :: later →
      (hub.after particulars earlier).Spares particulars s action) :
    (hub.after particulars actions).written s = hub.written s := by
  induction actions generalizing hub with
  | nil => rfl
  | cons action rest ih =>
    obtain ⟨hfirst, hrest⟩ := List.forall_mem_cons.mp haccepted
    obtain ⟨hfree', hsame⟩ := isFree_act particulars h hfree hfirst (hspares [] action rest rfl)
    have hlater := ih (h.act particulars hfirst) hfree' hrest fun earlier other later hsplit =>
      hspares (action :: earlier) other later (congrArg (action :: ·) hsplit)
    exact hlater.trans hsame

end

/-- The loggers of the package are the one of its name and those that add to it behind a point. -/
theorem isInPackage_iff {logger : String} :
    isInPackage logger = true ↔
      logger = packageLogger ∨ ∃ name, logger = packageLogger ++ "." ++ name := by
  unfold isInPackage
  rw [Bool.or_eq_true, beq_iff_eq, List.isPrefixOf_iff_prefix]
  refine or_congr_right ⟨fun ⟨rest, hrest⟩ => ?_, fun ⟨name, hname⟩ => ?_⟩
  · refine ⟨String.ofList rest, String.toList_injective ?_⟩
    rw [String.toList_append, String.toList_ofList, hrest]
  · have happend : logger.toList = (packageLogger ++ ".").toList ++ name.toList :=
      hname ▸ String.toList_append
    exact happend ▸ List.prefix_append _ _

end Hub

/-- Starting with a silent handler, after any actions of which each set-up has a form of log lines:
at most one handler made by setting up is attached, and at most one silent one. If there was a
set-up, the one that is attached is that of the last, on the stream that was given for it or else on
that for errors, and none is silent. Handlers of others stay, in their order. If a record of a logger
of the package is severe enough, each attached handler has its text written once, in the order of the
handlers, and nothing else is written or changed: a handler of others the message on its stream, and
the one made by setting up the line of its form, or on the stream for errors a report if there is no
line; there always is one in the standard form. Only where the level has too many digits is no record
made. A stream whose handler has been replaced keeps its text, unless a handler of others has it, or
a handler is attached to it again, or a record without a line is reported on it. -/
theorem logging_over_history (particulars : Particulars) (actions : List Action)
    (haccepted : ∀ action ∈ actions, action.IsAccepted) :
    let hub := Hub.after particulars {} actions
    hub.owns.length ≤ 1 ∧ hub.silents.length ≤ 1 ∧
    (∀ earlier level format? stream? later,
      actions = earlier ++ .configure level format? stream? :: later →
      (∀ action ∈ later, action.isSetup = false) →
      ∃ format, Hub.formatOf format? = .ok format ∧
        hub.owns =
          [.own (stream?.getD (Hub.after particulars {} earlier).errorStream) format] ∧
        hub.silents = []) ∧
    (∀ earlier later, actions = earlier ++ later →
      (Hub.after particulars {} earlier).foreigns <+: hub.foreigns) ∧
    (∀ record : Record,
      (record.logger = packageLogger ∨ ∃ name, record.logger = packageLogger ++ "." ++ name) →
      0 < record.severity →
      (if hub.level = 0 then Severity.warning else hub.level) ≤ record.severity →
      hub.log particulars record =
        if Text.IsShort record.severity then
          (none, { hub with
            written := fun s => hub.written s ++ String.join (hub.textsFor particulars record s) })
        else (some .longLevel, hub)) ∧
    (∀ record : Record, Format.standard.fill? particulars record =
      some (particulars.time record ++ " " ++ record.logger ++ " " ++ record.severity.name ++ " " ++
        record.message)) ∧
    (∀ earlier level format? stream? later,
      actions = earlier ++ .configure level format? stream? :: later →
      let before := Hub.after particulars {} earlier
      ∀ s format, .own s format ∈ before.handlers → .foreign s ∉ before.handlers →
      (∀ part action rest, .configure level format? stream? :: later = part ++ action :: rest →
        (before.after particulars part).Spares particulars s action) →
      hub.written s = before.written s) := by
  have hsound := Hub.isSound_new.after particulars haccepted
  refine ⟨hsound.own, hsound.silent, ?_, ?_, ?_, Format.fill?_standard particulars, ?_⟩
  · rintro earlier level format? stream? later rfl hlast
    obtain ⟨hearlier, hrest⟩ := List.forall_mem_append.mp haccepted
    obtain ⟨⟨format, hformat⟩, hlater⟩ := List.forall_mem_cons.mp hrest
    have hbefore := Hub.isSound_new.after particulars hearlier
    obtain ⟨hown, hsilent⟩ := Hub.owns_silents_after particulars
      (hbefore.configure level hformat stream?) hlater hlast
    obtain ⟨hown', hsilent'⟩ :=
      Hub.owns_silents_configure (Hub.after particulars {} earlier) level hformat stream?
    rw [Hub.after_append]
    exact ⟨format, hformat, hown.trans hown', hsilent.trans hsilent'⟩
  · rintro earlier later rfl
    obtain ⟨hearlier, hlater⟩ := List.forall_mem_append.mp haccepted
    rw [Hub.after_append]
    exact Hub.foreigns_prefix_after particulars (Hub.isSound_new.after particulars hearlier) hlater
  · intro record hlogger hpositive hlevel
    have hpasses : (Hub.after particulars {} actions).passes record = true := by
      unfold Hub.passes Hub.threshold
      rw [Hub.isInPackage_iff.mpr hlogger, decide_eq_true hpositive, decide_eq_true hlevel]
      rfl
    exact Hub.log_of_passes particulars hsound.nonempty hpasses
  · rintro earlier level format? stream? later rfl before s old - hforeign hspares
    obtain ⟨hearlier, hrest⟩ := List.forall_mem_append.mp haccepted
    obtain ⟨hfirst, hlater⟩ := List.forall_mem_cons.mp hrest
    have hbefore := Hub.isSound_new.after particulars hearlier
    obtain ⟨format, hformat⟩ := hfirst
    have hfree := Hub.isFree_configure hforeign level hformat (hspares [] _ later rfl)
    have hwritten := Hub.written_after particulars (hbefore.configure level hformat stream?) hfree
      hlater fun part action rest hsplit =>
        hspares (.configure level format? stream? :: part) action rest
          (congrArg (Action.configure level format? stream? :: ·) hsplit)
    rw [Hub.after_append]
    exact hwritten.trans (congrFun (Hub.configure_of_formatOf before level hformat stream?).2 s)

/-- A process at one moment, in which records have no fields but the usual ones. -/
def Particulars.bare : Particulars where
  time _ := "2024-02-29 12:00:00,000"
  field? _ _ := none
  whole _ _ := none
  number _ _ := none
  maxLength := 1000000000
  report _ := "--- Logging error ---\n"

/-- A set-up that ends with a fault, because its level cannot be read, still replaces the handler of
the one before it, and writes to the stream for errors if no stream is given. -/
theorem logging_over_history_of_failing_setup :
    let particulars := Particulars.bare
    let first : List Action := [.attach 1, .configure (.text "info") none (some 2)]
    let second : Action := .configure (.text "²") (some "%(levelno)s %(message)s") none
    let hub := Hub.after particulars {} (first ++ [second])
    let record : Record := ⟨"ifexpr.cli", 30, "hi"⟩
    (∀ action ∈ first ++ [second], action.IsAccepted) ∧
      (∃ format, hub.owns = [.own 0 format]) ∧ hub.silents = [] ∧
      (∃ later, hub.log particulars record = (none, later) ∧ later.written 0 = "30 hi\n" ∧
        later.written 1 = "hi\n" ∧ later.written 2 = "") ∧
      hub.written 2 = (Hub.after particulars {} first).written 2 := by
  intro particulars first second hub record
  have hhub : hub = Hub.after particulars {} (first ++ [second]) := rfl
  have haccepted : ∀ action ∈ first ++ [second], action.IsAccepted := by
    intro action hmem
    simp only [first, second, List.cons_append, List.nil_append, List.mem_cons, List.not_mem_nil,
      or_false] at hmem
    rcases hmem with rfl | rfl | rfl
    · trivial
    · exact ⟨.standard, rfl⟩
    · exact Hub.exists_formatOf (by decide +kernel)
  obtain ⟨-, -, hlast, -, hlog, -, hreplaced⟩ :=
    logging_over_history particulars (first ++ [second]) haccepted
  obtain ⟨format, -, hown, hsilent⟩ := hlast first _ _ _ [] rfl fun action hmem => by cases hmem
  have hshort : Text.IsShort record.severity := by decide
  have hlogged := hlog record (Or.inr ⟨"cli", rfl⟩) (by decide) (by decide +kernel)
  rw [if_pos hshort] at hlogged
  have hspares : ∀ part action rest, [second] = part ++ action :: rest →
      ((Hub.after particulars {} first).after particulars part).Spares particulars 2 action := by
    intro part action rest hsplit
    cases part with
    | nil =>
      obtain ⟨rfl, -⟩ := List.cons.inj hsplit
      exact Nat.zero_ne_add_one 1
    | cons _ part =>
      have hnone := (List.cons.inj hsplit).2
      exact absurd hnone.symm (List.append_ne_nil_of_right_ne_nil _ (List.cons_ne_nil _ _))
  have hhandlers : (Hub.after particulars {} first).handlers = [.foreign 1, .own 2 .standard] := rfl
  have hkept := hreplaced first _ _ _ [] rfl 2 .standard (hhandlers ▸ by decide)
    (hhandlers ▸ by decide) hspares
  rw [← hhub] at hkept
  exact ⟨haccepted, ⟨format, hown⟩, hsilent,
    ⟨_, hlogged, by decide +kernel, by decide +kernel, by decide +kernel⟩, hkept⟩

/-- Not every record is written once to the stream of the attached handler, and the stream of a handler
that was replaced may be written to. A form with a mark that makes no sense is accepted, and then a
record that is severe enough is not written in it; neither is one in any form whose level has too many
digits. And of two set-ups on the stream for errors the second writes where the first did. -/
theorem log_not_always_written_once :
    let particulars := Particulars.bare
    let senseless : Action := .configure (.text "info") (some "%(message)s %") (some 1)
    let usual : Action := .configure (.text "info") none none
    let record : Record := ⟨"ifexpr", 30, "hi"⟩
    let huge : Record := ⟨"ifexpr", Decimal.tenTo Text.maxNumeralDigits, "hi"⟩
    let first := Hub.after particulars {} [senseless]
    let second := Hub.after particulars {} [usual]
    let third := Hub.after particulars {} [usual, usual]
    (senseless.IsAccepted ∧ usual.IsAccepted) ∧
      (first.handlers.map Handler.stream? = [some 1] ∧ first.passes record = true ∧
        (first.log particulars record).2.written 1 = "") ∧
      (second.handlers = [.own 0 .standard] ∧ second.passes huge = true ∧
        (second.log particulars huge).2.written 0 = "") ∧
      third.handlers = [.own 0 .standard] ∧
      (third.log particulars record).2.written 0 =
        "2024-02-29 12:00:00,000 ifexpr WARNING hi\n" := by
  intro particulars senseless usual record huge first second third
  have hmono (k : Nat) (hk : 2 ≤ k) : Decimal.tenTo 2 ≤ Decimal.tenTo k :=
    Nat.pow_le_pow_right (by decide) hk
  have hsevere := hmono Text.maxNumeralDigits (by decide)
  have hpositive (k : Nat) : 0 < Decimal.tenTo k := Nat.pow_pos (by decide)
  have hthreshold : second.threshold ≤ huge.severity :=
    Int.le_trans (by decide : (20 : Int) ≤ Decimal.tenTo 2) (Int.ofNat_le.mpr hsevere)
  have hpasses : second.passes huge = true := by
    unfold Hub.passes
    rw [decide_eq_true hthreshold, decide_eq_true (Int.natCast_pos.mpr (hpositive _))]
    rfl
  have hhandlers : second.handlers = [.own 0 .standard] := rfl
  have hlog := Hub.log_of_passes particulars (hhandlers ▸ List.cons_ne_nil _ _) hpasses
  have hlength (k : Nat) (hk : 0 < k) : ¬ (Nat.toDigits 10 (Decimal.tenTo k)).length ≤ k := by
    rw [Nat.length_toDigits_le_iff (by decide) hk]
    exact Nat.lt_irrefl _
  have hlong : ¬ Text.IsShort huge.severity := by
    have hnat : huge.severity.natAbs = Decimal.tenTo Text.maxNumeralDigits := Int.natAbs_natCast _
    rw [Text.IsShort, hnat]
    exact hlength _ (by decide)
  have hempty : second.written 0 = "" := rfl
  rw [if_neg hlong] at hlog
  have hwritten : (second.log particulars huge).2.written 0 = "" := by
    rw [hlog]
    exact hempty
  exact ⟨⟨Hub.exists_formatOf (by decide +kernel), .standard, rfl⟩,
    ⟨by decide +kernel, by decide +kernel, by decide +kernel⟩, ⟨hhandlers, hpasses, hwritten⟩,
    by decide +kernel, by decide +kernel⟩

end QuoteStack.Logging
