import TinyScript.Proofs.OpenTexts
import TinyScript.Proofs.Replies
import TinyScript.Session

/-!
# Sessions run programs

The input of a session divides into programs in one way only. A program begins with a line that is
neither blank nor a command and takes in as many lines as it needs to be complete; a reset drops the
lines of a program that is not complete yet. The session runs exactly these programs, one after the
other, in one scope, and reports the outcome of each to its writer, which may be the output where
programs print or another one. While lines wait nothing else happens.
-/

namespace TinyScript

open Cursor Grammar

namespace Text

/-- Only the empty text is empty. -/
theorem isEmpty_eq_true_iff (t : Text) : t.isEmpty = true ↔ t = empty := by
  rw [isEmpty, beq_iff_eq]
  constructor
  · intro h
    ext1
    exact List.length_eq_zero_iff.mp h
  · rintro rfl
    rfl

/-- A text with a line feed behind it is not empty. -/
theorem isEmpty_lineFeed (t : Text) : (t ++ "\n").isEmpty = false := by
  rw [Bool.eq_false_iff, Ne, isEmpty_eq_true_iff]
  intro h
  have hbytes := congrArg bytes h
  rw [bytes_append] at hbytes
  exact List.cons_ne_nil _ _ (List.append_eq_nil_iff.mp hbytes).2

end Text

namespace Session

/-- What a session is given: a line, or the wish to forget the lines that wait. -/
inductive Input where
  | line (t : Text)
  | reset
deriving DecidableEq

/-- What a session does about its input: run a program, or show the commands. -/
inductive Action where
  | run (src : Text)
  | help
deriving DecidableEq

/-- A line that can be the first one of a program: it is not all white space and comments, and it is
no command. -/
def Opens (line : Text) : Prop :=
  ¬ Gap true line.bytes ∧ line.trim ≠ exitCommand ∧ line.trim ≠ helpCommand

/-- Lines that a session waits with: the first one begins a program, and neither it nor more of them
make a complete one. -/
structure Waits (lines : List Text) : Prop where
  opens : ∀ line, lines.head? = some line → Opens line
  incomplete : ∀ n, 0 < n → n ≤ lines.length → Incomplete (Text.join "\n" (lines.take n))

/-- A line that makes the lines in front of it a program. -/
structure Completes (lines : List Text) (line : Text) : Prop where
  waits : Waits lines
  opens : lines = [] → Opens line
  complete : ¬ Incomplete (Text.join "\n" (lines ++ [line]))

/-- How input divides: into what is to be done, in order, and the lines that wait in the end. -/
inductive Divides : List Input → List Action → List Text → Prop where
  | wait {lines : List Text} (h : Waits lines) : Divides (lines.map .line) [] lines
  | drop {lines waiting : List Text} {rest : List Input} {actions : List Action} (h : Waits lines)
      (hrest : Divides rest actions waiting) :
      Divides (lines.map .line ++ .reset :: rest) actions waiting
  | program {lines waiting : List Text} {line : Text} {rest : List Input} {actions : List Action}
      (h : Completes lines line) (hrest : Divides rest actions waiting) :
      Divides (lines.map .line ++ .line line :: rest)
        (.run (Text.join "\n" (lines ++ [line])) :: actions) waiting
  | blank {line : Text} {waiting : List Text} {rest : List Input} {actions : List Action}
      (h : Gap true line.bytes) (hrest : Divides rest actions waiting) :
      Divides (.line line :: rest) actions waiting
  | exit {line : Text} {waiting : List Text} {rest : List Input} {actions : List Action}
      (h : ¬ Gap true line.bytes) (hexit : line.trim = exitCommand)
      (hrest : Divides rest actions waiting) : Divides (.line line :: rest) actions waiting
  | help {line : Text} {waiting : List Text} {rest : List Input} {actions : List Action}
      (h : ¬ Gap true line.bytes) (hhelp : line.trim = helpCommand)
      (hrest : Divides rest actions waiting) :
      Divides (.line line :: rest) (.help :: actions) waiting

/-- The lines that wait, each with its line feed. -/
def kept (lines : List Text) : Text := Text.concat (lines.map fun line => line ++ "\n")

/-- A text in red, where texts are coloured. -/
inductive Reddened : Style → Text → Text → Prop where
  | plain (t : Text) : Reddened .plain t t
  | coloured (t : Text) : Reddened .coloured t ("\x1b[31m" ++ t ++ "\x1b[0m")

/-- What is told about the outcome of a program: the text of the value behind a red sign, or the
fault in red, and a line feed. -/
inductive Told (style : Style) : Outcome → Text → Prop where
  | value (v : Value) (s : Store) {sign : Text} (h : Reddened style "=" sign) :
      Told style ⟨.ok v, s⟩ (sign ++ " " ++ s.sourceText v ++ "\n")
  | fault (fault : Fault) (s : Store) {message : Text} (h : Reddened style fault.report message) :
      Told style ⟨.error fault, s⟩ (message ++ "\n")

/-- Do what input calls for. A program is run once, and one report is written when it has ended. -/
def perform (style : Style) (limits : Limits) (fuel : Nat) (c : Console) : Action → Option Console
  | .run src => (execute limits fuel src c.session.scope c.session.store).map fun o =>
      Console.write { c with session := { c.session with store := o.store } } (report style o)
  | .help => some (c.write helpText)

/-- The session after an input, whatever it answers. -/
def take (style : Style) (limits : Limits) (fuel : Nat) (c : Console) : Input → Option Console
  | .line t => (c.feed style limits fuel t).map Prod.snd
  | .reset => some { c with session := c.session.reset }

/-- Do several things, one after the other. -/
def performAll (style : Style) (limits : Limits) (fuel : Nat) :
    List Action → Console → Option Console
  | [], c => some c
  | action :: actions, c =>
    (perform style limits fuel c action).bind (performAll style limits fuel actions)

/-- The session after several inputs. -/
def takeAll (style : Style) (limits : Limits) (fuel : Nat) : List Input → Console → Option Console
  | [], c => some c
  | input :: inputs, c => (take style limits fuel c input).bind (takeAll style limits fuel inputs)

/-- A session that waits with some lines. -/
def waitingWith (c : Console) (lines : List Text) : Console :=
  { c with session := { c.session with pending := kept lines } }

/-- Blank lines are gaps. -/
theorem isBlankLine_iff (line : Text) : isBlankLine line = true ↔ Gap true line.bytes := by
  rw [isBlankLine, Cursor.atEnd, List.isEmpty_iff]
  constructor
  · intro hend
    obtain ⟨gap, hspans, -, hgap⟩ := (Cursor.ofText line).skipBlank_spec
    rw [hend] at hgap
    have hbytes : line.bytes = gap := by
      have := hspans.rest
      rwa [hend, List.append_nil] at this
    rw [hbytes]
    exact hgap
  · intro hgap
    have hskip := skipFrom_gap hgap settled_nil (fun _ => rfl) (Cursor.ofText line).pos
    rw [List.append_nil] at hskip
    exact congrArg Cursor.rest hskip

instance (line : Text) : Decidable (Opens line) :=
  decidable_of_iff (isBlankLine line = false ∧ line.trim ≠ exitCommand ∧ line.trim ≠ helpCommand)
    (by rw [Opens, ← isBlankLine_iff, Bool.not_eq_true])

/-- A further line behind those that wait. -/
theorem kept_append (lines : List Text) (line : Text) :
    kept (lines ++ [line]) = kept lines ++ line ++ "\n" := by
  simp [kept, Text.concat_append, Text.concat_cons, Text.append_assoc]

/-- A line behind those that wait is read as part of one text. -/
theorem kept_line (lines : List Text) (line : Text) :
    kept lines ++ line = Text.join "\n" (lines ++ [line]) := by
  induction lines with
  | nil => simp [kept, Text.join]
  | cons first rest ih =>
    have hjoin : Text.join "\n" (first :: (rest ++ [line])) =
        first ++ "\n" ++ Text.join "\n" (rest ++ [line]) := by
      cases rest with
      | nil => simp [Text.join, Text.append_assoc]
      | cons second rest =>
        rw [Text.join_cons, List.cons_append, List.map_cons, Text.concat_cons, Text.join_cons,
          Text.append_assoc, Text.append_assoc]
    rw [List.cons_append, hjoin, ← ih, kept, kept, List.map_cons, Text.concat_cons,
      Text.append_assoc (first ++ "\n")]

/-- A session that waits with lines is continued. -/
theorem isContinued_waitingWith (c : Console) {lines : List Text} (hne : lines ≠ []) :
    (waitingWith c lines).session.isContinued = true := by
  obtain ⟨front, line, rfl⟩ := (List.eq_nil_or_concat' lines).resolve_left hne
  simp only [waitingWith, isContinued, kept_append, Text.isEmpty_lineFeed, Bool.not_false]

/-- A session may wait without lines. -/
theorem waits_nil : Waits [] := ⟨nofun, fun n hpos hle => by simp at hle; omega⟩

/-- Lines go on waiting with a line that leaves them incomplete. -/
theorem Waits.append {lines : List Text} {line : Text} (h : Waits lines)
    (hopens : lines = [] → Opens line) (hopen : Incomplete (Text.join "\n" (lines ++ [line]))) :
    Waits (lines ++ [line]) := by
  constructor
  · intro first hfirst
    cases lines with
    | nil =>
      obtain rfl := Option.some.inj hfirst
      exact hopens rfl
    | cons head rest => exact h.opens first hfirst
  · intro n hpos hle
    rw [List.length_append, List.length_singleton] at hle
    rcases Nat.lt_or_ge lines.length n with hlt | hge
    · rw [List.take_of_length_le (by simp; omega)]
      exact hopen
    · rw [List.take_append_of_le_length hge]
      exact h.incomplete n hpos hge

/-- All but the last of some lines that wait are lines that wait, and the last one leaves them
incomplete. -/
theorem Waits.of_append {lines : List Text} {line : Text} (h : Waits (lines ++ [line])) :
    Waits lines ∧ (lines = [] → Opens line) ∧ Incomplete (Text.join "\n" (lines ++ [line])) := by
  refine ⟨⟨?_, ?_⟩, ?_, ?_⟩
  · intro first hfirst
    refine h.opens first ?_
    rw [List.head?_append, hfirst]
    rfl
  · intro n hpos hle
    have hopen := h.incomplete n hpos (by simp; omega)
    rwa [List.take_append_of_le_length hle] at hopen
  · rintro rfl
    exact h.opens line rfl
  · have hopen := h.incomplete (lines ++ [line]).length (by simp) (Nat.le_refl _)
    rwa [List.take_length] at hopen

/-- What waits is empty or an incomplete text. -/
theorem Waits.kept {lines : List Text} (h : Waits lines) :
    kept lines = Text.empty ∨ Incomplete (kept lines) := by
  rcases List.eq_nil_or_concat' lines with rfl | ⟨front, line, rfl⟩
  · exact .inl rfl
  · rw [kept_append, kept_line]
    exact .inr (h.of_append.2.2).lineFeed

/-- The division, computed line by line with the lines that wait so far. -/
def divide : List Text → List Input → List Action × List Text
  | lines, [] => ([], lines)
  | _, .reset :: rest => divide [] rest
  | lines, .line line :: rest =>
    if lines ≠ [] ∨ Opens line then
      if Incomplete (Text.join "\n" (lines ++ [line])) then divide (lines ++ [line]) rest
      else
        let (actions, waiting) := divide [] rest
        (.run (Text.join "\n" (lines ++ [line])) :: actions, waiting)
    else
      let (actions, waiting) := divide [] rest
      (if isBlankLine line = false ∧ line.trim = helpCommand then .help :: actions else actions,
        waiting)

/-- Lines that wait are passed one by one. -/
theorem divide_waits {lines : List Text} (h : Waits lines) (rest : List Input) :
    divide [] (lines.map .line ++ rest) = divide lines rest := by
  induction lines using List.reverseRecOn generalizing rest with
  | nil => rfl
  | append_singleton lines line ih =>
    obtain ⟨hwaits, hopens, hopen⟩ := h.of_append
    have hstart : lines ≠ [] ∨ Opens line := by
      by_cases hnil : lines = []
      · exact .inr (hopens hnil)
      · exact .inl hnil
    rw [List.map_append, List.append_assoc, ih hwaits, List.map_singleton, List.singleton_append,
      divide, if_pos hstart, if_pos hopen]

/-- Every division is the one that is computed. -/
theorem Divides.eq_divide {inputs : List Input} {actions : List Action} {waiting : List Text}
    (h : Divides inputs actions waiting) : divide [] inputs = (actions, waiting) := by
  have hskips {line : Text} (hline : ¬ Opens line) : ¬ (([] : List Text) ≠ [] ∨ Opens line) := by
    simpa using hline
  induction h with
  | @wait lines hwaits =>
    have hdivide := divide_waits hwaits []
    rwa [List.append_nil, divide] at hdivide
  | drop hwaits _ ih => rw [divide_waits hwaits, divide, ih]
  | @program lines _ line _ _ hcompletes _ ih =>
    have hstart : lines ≠ [] ∨ Opens line := by
      by_cases hnil : lines = []
      · exact .inr (hcompletes.opens hnil)
      · exact .inl hnil
    rw [divide_waits hcompletes.waits, divide, if_pos hstart, if_neg hcompletes.complete, ih]
  | @blank line _ _ _ hblank _ ih =>
    have hline : isBlankLine line = true := (isBlankLine_iff line).mpr hblank
    rw [divide, if_neg (hskips fun hopens => hopens.1 hblank), ih]
    simp [hline]
  | @exit line _ _ _ hblank hexit _ ih =>
    rw [divide, if_neg (hskips fun hopens => hopens.2.1 hexit), ih]
    have hother : exitCommand ≠ helpCommand := by decide
    simp [hexit, hother]
  | @help line _ _ _ hblank hhelp _ ih =>
    have hline : isBlankLine line = false := by
      rw [Bool.eq_false_iff, Ne, isBlankLine_iff]
      exact hblank
    rw [divide, if_neg (hskips fun hopens => hopens.2.2 hhelp), ih]
    simp [hline, hhelp]

/-- All input divides, also behind lines that wait. -/
theorem exists_divides {lines : List Text} (h : Waits lines) (inputs : List Input) :
    ∃ actions waiting, Divides (lines.map .line ++ inputs) actions waiting := by
  induction inputs generalizing lines with
  | nil => exact ⟨[], lines, by simpa using Divides.wait h⟩
  | cons input rest ih =>
    obtain ⟨actions, waiting, hrest⟩ := ih waits_nil
    rw [List.map_nil, List.nil_append] at hrest
    cases input with
    | reset => exact ⟨actions, waiting, .drop h hrest⟩
    | line line =>
      by_cases hstart : lines = [] → Opens line
      · by_cases hopen : Incomplete (Text.join "\n" (lines ++ [line]))
        · obtain ⟨actions, waiting, hdivides⟩ := ih (h.append hstart hopen)
          exact ⟨actions, waiting, by simpa using hdivides⟩
        · exact ⟨_, waiting, .program ⟨h, hstart, hopen⟩ hrest⟩
      · obtain ⟨rfl, hline⟩ := Classical.not_imp.mp hstart
        by_cases hblank : Gap true line.bytes
        · exact ⟨actions, waiting, .blank hblank hrest⟩
        · by_cases hexit : line.trim = exitCommand
          · exact ⟨actions, waiting, .exit hblank hexit hrest⟩
          · have hhelp : line.trim = helpCommand := by
              by_contra hhelp
              exact hline ⟨hblank, hexit, hhelp⟩
            exact ⟨_, waiting, .help hblank hhelp hrest⟩

section Feeding

variable {style : Style} {limits : Limits} {fuel : Nat}

/-- A line is part of a program if lines wait already or if it can be the first one. -/
theorem feed_of_opens {c : Console} {line : Text}
    (h : c.session.isContinued = true ∨ Opens line) :
    c.feed style limits fuel line = (c.submit style limits fuel line).map fun c => (true, c) := by
  unfold Console.feed
  by_cases hcontinued : c.session.isContinued = true
  · rw [if_pos hcontinued]
  · obtain ⟨hblank, hexit, hhelp⟩ := h.resolve_left hcontinued
    rw [← isBlankLine_iff] at hblank
    rw [if_neg hcontinued, if_neg hblank, if_neg hexit, if_neg hhelp]

/-- A blank line does nothing where no lines wait. -/
theorem feed_of_blank {c : Console} {line : Text} (hc : c.session.isContinued = false)
    (h : Gap true line.bytes) : c.feed style limits fuel line = some (true, c) := by
  rw [← isBlankLine_iff] at h
  rw [Console.feed, hc, if_neg Bool.false_ne_true, if_pos h]

/-- The command to leave ends a session where no lines wait, and does nothing else. -/
theorem feed_of_exit {c : Console} {line : Text} (hc : c.session.isContinued = false)
    (hblank : ¬ Gap true line.bytes) (h : line.trim = exitCommand) :
    c.feed style limits fuel line = some (false, c) := by
  rw [← isBlankLine_iff] at hblank
  rw [Console.feed, hc, if_neg Bool.false_ne_true, if_neg hblank, if_pos h]

/-- The command for help shows the commands where no lines wait. -/
theorem feed_of_help {c : Console} {line : Text} (hc : c.session.isContinued = false)
    (hblank : ¬ Gap true line.bytes) (h : line.trim = helpCommand) :
    c.feed style limits fuel line = some (true, c.write helpText) := by
  have hother : helpCommand ≠ exitCommand := by decide
  rw [← isBlankLine_iff] at hblank
  rw [Console.feed, hc, if_neg Bool.false_ne_true, if_neg hblank, if_neg (h ▸ hother), if_pos h]

/-- An incomplete program waits with its lines, and nothing else changes. -/
theorem submit_of_incomplete {c : Console} {line : Text}
    (h : Incomplete (c.session.pending ++ line)) :
    c.submit style limits fuel line =
      some { c with
        session := { c.session with pending := c.session.pending ++ line ++ "\n" } } := by
  obtain ⟨fault, hparse, hopen⟩ := h
  simp only [Console.submit, execute, hparse, hopen, if_true]

/-- The fault of a program that is complete is never that of an incomplete one. -/
theorem isFinal_of_execute {src : Text} {scope : ScopeRef} {s : Store} {o : Outcome} {fault : Fault}
    (h : ¬ Incomplete src) (ho : execute limits fuel src scope s = some o)
    (hresult : o.result = .error fault) : fault.cause.isIncomplete = false := by
  unfold execute at ho
  split at ho
  · rename_i fault' hparse
    obtain rfl := Option.some.inj ho
    obtain rfl := Except.error.inj hresult
    rw [Bool.eq_false_iff]
    exact fun hopen => h ⟨fault', hparse, hopen⟩
  · exact isFinal_of_evaluate ho hresult

/-- A complete program is run, and its outcome is reported. -/
theorem submit_of_complete {c : Console} {line : Text}
    (h : ¬ Incomplete (c.session.pending ++ line)) :
    c.submit style limits fuel line =
      (execute limits fuel (c.session.pending ++ line) c.session.scope c.session.store).map
        (c.report style) := by
  simp only [Console.submit]
  cases ho : execute limits fuel (c.session.pending ++ line) c.session.scope c.session.store with
  | none => rfl
  | some o =>
    dsimp only [Option.map_some]
    cases hresult : o.result with
    | ok v => rfl
    | error fault =>
      dsimp only
      rw [isFinal_of_execute h ho hresult]
      rfl

/-- Writing leaves the lines that wait. -/
@[simp] theorem pending_write (c : Console) (t : Text) :
    (c.write t).session.pending = c.session.pending := by
  unfold Console.write
  split <;> rfl

/-- What is written about an outcome is what is to be told about it. -/
theorem told_report (style : Style) (o : Outcome) : Told style o (report style o) := by
  have hred (t : Text) : Reddened style t (style.red t) := by
    cases style with
    | plain => exact .plain t
    | coloured => exact .coloured t
  obtain ⟨result, s⟩ := o
  cases result with
  | ok v => exact .value v s (hred _)
  | error fault => exact .fault fault s (hred _)

/-- Where a line leaves lines waiting, nothing was run and nothing was written. -/
theorem eq_of_isContinued {c c' : Console} {line : Text} {answer : Bool}
    (h : c.feed style limits fuel line = some (answer, c'))
    (hc' : c'.session.isContinued = true) :
    c'.session.store = c.session.store ∧ c'.writer = c.writer := by
  by_cases hopens : c.session.isContinued = true ∨ Opens line
  · rw [feed_of_opens hopens] at h
    by_cases hopen : Incomplete (c.session.pending ++ line)
    · rw [submit_of_incomplete hopen] at h
      obtain ⟨-, rfl⟩ := Prod.mk.inj (Option.some.inj h)
      exact ⟨rfl, rfl⟩
    · rw [submit_of_complete hopen, Option.map_map] at h
      obtain ⟨o, -, hs⟩ := Option.map_eq_some_iff.mp h
      obtain ⟨-, rfl⟩ := Prod.mk.inj hs
      have hpending : (c.report style o).session.pending = Text.empty := pending_write _ _
      rw [isContinued, hpending] at hc'
      cases hc'
  · have hcontinued : ¬ c.session.isContinued = true := fun hc => hopens (.inl hc)
    rw [Console.feed, if_neg hcontinued] at h
    split_ifs at h with hblank hexit hhelp
    · obtain ⟨-, rfl⟩ := Prod.mk.inj (Option.some.inj h)
      exact ⟨rfl, rfl⟩
    · obtain ⟨-, rfl⟩ := Prod.mk.inj (Option.some.inj h)
      exact ⟨rfl, rfl⟩
    · obtain ⟨-, rfl⟩ := Prod.mk.inj (Option.some.inj h)
      rw [isContinued, pending_write] at hc'
      exact absurd hc' hcontinued
    · rw [isBlankLine_iff] at hblank
      exact absurd (.inr ⟨hblank, hexit, hhelp⟩) hopens

/-- A line that makes a program complete: the program is run, and its report is written once, behind
what it has printed if both go to one output; no lines wait any more. -/
theorem feed_of_complete {c c' : Console} {line : Text} {answer : Bool}
    (h : c.feed style limits fuel line = some (answer, c'))
    (hopens : c.session.isContinued = true ∨ Opens line)
    (hcomplete : ¬ Incomplete (c.session.pending ++ line)) :
    c'.session.pending = Text.empty ∧
      ∃ o told, execute limits fuel (c.session.pending ++ line) c.session.scope c.session.store =
          some o ∧
        Told style o told ∧
        (∀ w, c.writer = some w → c'.session.store = o.store ∧ c'.writer = some (w.write told) ∧
          (w.refusal? = none → (w.write told).text = w.text ++ told)) ∧
        (c.writer = none → c'.writer = none ∧
          c'.session.store = { o.store with output := o.store.output.write told } ∧
          (c.session.store.output.Open → ∃ prints,
            o.store.output.text = c.session.store.output.text ++ prints ∧
            c'.session.store.output.text = c.session.store.output.text ++ prints ++ told)) := by
  rw [feed_of_opens hopens, submit_of_complete hcomplete, Option.map_map] at h
  obtain ⟨o, ho, hs⟩ := Option.map_eq_some_iff.mp h
  obtain ⟨-, rfl⟩ := Prod.mk.inj hs
  refine ⟨pending_write _ _, o, report style o, ho, told_report style o, ?_, ?_⟩
  · intro w hw
    have hreport : c.report style o =
        ⟨⟨c.session.scope, Text.empty, o.store⟩, some (w.write (report style o))⟩ := by
      simp only [Console.report, Console.write, hw]
    rw [hreport]
    exact ⟨rfl, rfl, fun htaken => Output.text_write htaken _⟩
  · intro hw
    have hreport : c.report style o = ⟨⟨c.session.scope, Text.empty,
        { o.store with output := o.store.output.write (report style o) }⟩, none⟩ := by
      simp only [Console.report, Console.write, hw]
    have hextends := extends_output_of_execute ho
    obtain ⟨prints, hprints⟩ := hextends.text
    rw [hreport]
    refine ⟨rfl, rfl, fun hopen => ⟨prints, hprints, ?_⟩⟩
    rw [← hprints]
    exact Output.text_write (hextends.isOpen hopen).refusal?_eq_none _

/-- A line behind lines that wait, or one that can be the first, is part of a program. -/
theorem continued_or_opens (c : Console) {lines : List Text} {line : Text}
    (h : lines = [] → Opens line) :
    (waitingWith c lines).session.isContinued = true ∨ Opens line := by
  by_cases hnil : lines = []
  · exact .inr (h hnil)
  · exact .inl (isContinued_waitingWith c hnil)

/-- Lines that wait are kept, and nothing else changes. -/
theorem takeAll_waits {lines : List Text} (h : Waits lines) (rest : List Input) {c : Console}
    (hc : c.session.pending = Text.empty) :
    takeAll style limits fuel (lines.map .line ++ rest) c =
      takeAll style limits fuel rest (waitingWith c lines) := by
  induction lines using List.reverseRecOn generalizing rest with
  | nil =>
    have hsame : waitingWith c [] = c := by
      obtain ⟨⟨scope, pending, store⟩, writer⟩ := c
      obtain rfl := hc
      rfl
    rw [hsame]
    rfl
  | append_singleton lines line ih =>
    obtain ⟨hwaits, hopens, hopen⟩ := h.of_append
    have hfeed : (waitingWith c lines).feed style limits fuel line =
        some (true, waitingWith c (lines ++ [line])) := by
      rw [feed_of_opens, submit_of_incomplete, waitingWith, waitingWith, kept_append]
      · rfl
      · change Incomplete (kept lines ++ line)
        rwa [kept_line]
      · exact continued_or_opens c hopens
    rw [List.map_append, List.append_assoc, ih hwaits, List.map_singleton, List.singleton_append,
      takeAll, take, hfeed]
    rfl

/-- What is done about input leaves the lines that wait. -/
theorem pending_of_perform {c c' : Console} {action : Action}
    (h : perform style limits fuel c action = some c') :
    c'.session.pending = c.session.pending := by
  cases action with
  | run src =>
    obtain ⟨o, -, rfl⟩ := Option.map_eq_some_iff.mp h
    exact pending_write _ _
  | help =>
    obtain rfl := Option.some.inj h
    exact pending_write _ _

/-- A session does what its input divides into, in order, and keeps the lines that wait. -/
theorem Divides.takeAll_eq {inputs : List Input} {actions : List Action} {waiting : List Text}
    (h : Divides inputs actions waiting) {c : Console} (hc : c.session.pending = Text.empty) :
    takeAll style limits fuel inputs c =
      (performAll style limits fuel actions c).map (waitingWith · waiting) := by
  have hstart {c : Console} (hc : c.session.pending = Text.empty) :
      c.session.isContinued = false := by
    rw [isContinued, hc]
    rfl
  induction h generalizing c with
  | @wait lines hwaits =>
    have htake : takeAll style limits fuel (lines.map .line ++ []) c =
        takeAll style limits fuel [] (waitingWith c lines) := takeAll_waits hwaits [] hc
    rwa [List.append_nil] at htake
  | @drop lines _ _ _ hwaits _ ih =>
    have hreset : { waitingWith c lines with session := (waitingWith c lines).session.reset } =
        c := by
      obtain ⟨⟨scope, pending, store⟩, writer⟩ := c
      obtain rfl := hc
      rfl
    rw [takeAll_waits hwaits _ hc, takeAll, take, Option.bind_some, hreset, ih hc]
  | @program lines _ line _ _ hcompletes _ ih =>
    have hopens := continued_or_opens c hcompletes.opens
    have hcomplete : ¬ Incomplete ((waitingWith c lines).session.pending ++ line) := by
      change ¬ Incomplete (kept lines ++ line)
      rw [kept_line]
      exact hcompletes.complete
    have hsubmit : (waitingWith c lines).submit style limits fuel line =
        perform style limits fuel c (.run (kept lines ++ line)) := by
      obtain ⟨⟨scope, pending, store⟩, writer⟩ := c
      obtain rfl := hc
      exact submit_of_complete hcomplete
    rw [takeAll_waits hcompletes.waits _ hc, takeAll, take, feed_of_opens hopens, hsubmit,
      performAll, ← kept_line]
    cases hperform : perform style limits fuel c (.run (kept lines ++ line)) with
    | none => rfl
    | some c' =>
      have hc' : c'.session.pending = Text.empty := (pending_of_perform hperform).trans hc
      rw [Option.map_some, Option.map_some, Option.bind_some, Option.bind_some, ih hc']
  | blank hblank _ ih =>
    rw [takeAll, take, feed_of_blank (hstart hc) hblank, Option.map_some, Option.bind_some, ih hc]
  | exit hblank hexit _ ih =>
    rw [takeAll, take, feed_of_exit (hstart hc) hblank hexit, Option.map_some, Option.bind_some,
      ih hc]
  | help hblank hhelp _ ih =>
    rw [takeAll, take, feed_of_help (hstart hc) hblank hhelp, Option.map_some, Option.bind_some,
      performAll, perform, Option.bind_some, ih ((pending_write c helpText).trans hc)]

/-- The lines that wait in the end are such lines. -/
theorem Divides.waits {inputs : List Input} {actions : List Action} {waiting : List Text}
    (h : Divides inputs actions waiting) : Waits waiting := by
  induction h with
  | wait hwaits => exact hwaits
  | drop _ _ ih | program _ _ ih | blank _ _ ih | exit _ _ _ ih | help _ _ _ ih => exact ih

end Feeding

/-- Input divides in exactly one way into programs, each as short as can be, and lines that wait. A
session runs these programs, each once and in order, in its scope, reports each outcome when it is
there, and waits with the other lines; what waits is empty or an incomplete text. Along the way, a
line that leaves lines waiting changes nothing in the store and writes nothing. One that completes a
program leaves no lines waiting, and writes one report: a red sign, a space, the text of the value
and a line feed, or the fault in red and a line feed. The report goes to the writer of the session,
if it has its own, and then the store is as the program has left it. Otherwise it stands behind what
the program has printed. -/
theorem takeAll_eq_performAll (style : Style) (limits : Limits) (fuel : Nat) (scope : ScopeRef)
    (store : Store) (writer : Option Output) (inputs : List Input) :
    (∀ o, Told style o (report style o)) ∧
    ∃ actions waiting, Divides inputs actions waiting ∧
      (∀ actions' waiting', Divides inputs actions' waiting' →
        actions' = actions ∧ waiting' = waiting) ∧
      takeAll style limits fuel inputs ⟨⟨scope, Text.empty, store⟩, writer⟩ =
        (performAll style limits fuel actions ⟨⟨scope, Text.empty, store⟩, writer⟩).map
          (waitingWith · waiting) ∧
      (kept waiting = Text.empty ∨ Incomplete (kept waiting)) ∧
      ∀ c line answer c',
        takeAll style limits fuel inputs ⟨⟨scope, Text.empty, store⟩, writer⟩ = some c →
        c.feed style limits fuel line = some (answer, c') →
        (c'.session.isContinued = true →
          c'.session.store = c.session.store ∧ c'.writer = c.writer) ∧
        (c.session.isContinued = true ∨ Opens line → ¬ Incomplete (c.session.pending ++ line) →
          c'.session.pending = Text.empty ∧
          ∃ o told, execute limits fuel (c.session.pending ++ line) c.session.scope
              c.session.store = some o ∧
            Told style o told ∧
            (∀ w, c.writer = some w → c'.session.store = o.store ∧
              c'.writer = some (w.write told) ∧
              (w.refusal? = none → (w.write told).text = w.text ++ told)) ∧
            (c.writer = none → c'.writer = none ∧
              c'.session.store = { o.store with output := o.store.output.write told } ∧
              (c.session.store.output.Open → ∃ prints,
                o.store.output.text = c.session.store.output.text ++ prints ∧
                c'.session.store.output.text =
                  c.session.store.output.text ++ prints ++ told))) := by
  obtain ⟨actions, waiting, hdivides⟩ := exists_divides waits_nil inputs
  rw [List.map_nil, List.nil_append] at hdivides
  refine ⟨told_report style, actions, waiting, hdivides, ?_, hdivides.takeAll_eq rfl,
    hdivides.waits.kept, ?_⟩
  · intro actions' waiting' hdivides'
    exact Prod.mk.inj (hdivides'.eq_divide.symm.trans hdivides.eq_divide)
  · intro c line answer c' _ hfeed
    exact ⟨eq_of_isContinued hfeed, feed_of_complete hfeed⟩

/-- A reset drops a line, a program takes two lines, and the last line waits. -/
example :
    divide [] [.line "f(1,", .reset, .line "# f", .line "+(1, # one", .line "2)", .line " .help",
        .line "g("] =
      ([Action.run "+(1, # one\n2)", Action.help], [Text.ofString "g("]) := by
  decide +kernel

end Session

end TinyScript
