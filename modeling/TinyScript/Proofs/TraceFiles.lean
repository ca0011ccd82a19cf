import TinyScript.Proofs.Json
import TinyScript.Trace

/-!
# Trace files are JSON

A trace file that was closed says an array with one object for each event. The names, categories and
phases of events may be any bytes: what JSON would take for something else is escaped, and a stray
byte is read as the replacement character.
-/

namespace TinyScript

namespace Json

/-- What may follow a value inside of an array or an object. -/
def Ends (r : List Char) : Prop := ∃ c u, r = c :: u ∧ (c = ',' ∨ c = ']' ∨ c = '\x7d')

/-- Some characters are read as a value, whatever may follow it. -/
def Writes (w : List Char) (v : Json) : Prop := ∀ r, Ends r → ReadsValue (w ++ r) v r

/-- A comma may follow a value. -/
theorem ends_comma (u : List Char) : Ends (',' :: u) := ⟨_, u, rfl, .inl rfl⟩

/-- A closing bracket may follow a value. -/
theorem ends_bracket (u : List Char) : Ends (']' :: u) := ⟨_, u, rfl, .inr (.inl rfl)⟩

/-- A closing brace may follow a value. -/
theorem ends_brace (u : List Char) : Ends ('\x7d' :: u) := ⟨_, u, rfl, .inr (.inr rfl)⟩

/-- A value begins with no white space. -/
theorem ReadsValue.skipBlank_eq {t r : List Char} {v : Json} (h : ReadsValue t v r) :
    skipBlank t = t := by
  cases h with
  | null | yes | no | string | array | object => rfl
  | number h =>
    cases t with
    | nil => rfl
    | cons c t =>
      have hc : isBlank c = false := by
        rcases h.head with rfl | hdigit
        · rfl
        · by_contra hblank
          simp only [isBlank, Bool.not_eq_false, Bool.or_eq_true, beq_iff_eq] at hblank
          rcases hblank with ((rfl | rfl) | rfl) | rfl <;> exact absurd hdigit (by decide)
      simp [skipBlank, hc]

/-- A hexadecimal digit that was written is read as its value. -/
theorem digitIn?_lowerHex {n : Nat} (h : n < 16) : Text.digitIn? 16 (Text.lowerHex n) = some n := by
  have hall : ∀ n : Fin 16, Text.digitIn? 16 (Text.lowerHex n) = some n.val := by decide +kernel
  exact hall ⟨n, h⟩

/-- The escape of a character by its code is read as that character. -/
theorem readsCharacter_escapeCode {c : Char} (h : c.toNat < 0x10000) (r : List Char) :
    ReadsCharacter (Text.escapeCode c.toNat ++ r) c r := by
  have hdigits : Text.hexDigits 4 c.toNat = [Text.lowerHex (c.toNat / 4096 % 16),
      Text.lowerHex (c.toNat / 256 % 16), Text.lowerHex (c.toNat / 16 % 16),
      Text.lowerHex (c.toNat / 1 % 16)] := rfl
  have hcode : fourDigits? (Text.lowerHex (c.toNat / 4096 % 16))
      (Text.lowerHex (c.toNat / 256 % 16)) (Text.lowerHex (c.toNat / 16 % 16))
      (Text.lowerHex (c.toNat / 1 % 16)) = some c.toNat := by
    simp only [fourDigits?, digitIn?_lowerHex (Nat.mod_lt _ (Nat.zero_lt_succ 15)),
      Option.bind_eq_bind, Option.bind_some, Option.some.injEq]
    omega
  have hread := ReadsCharacter.code (r := r) hcode c.valid
  rw [Char.ofNat_toNat] at hread
  rw [Text.escapeCode, hdigits]
  exact hread

/-- A character as it is written in quotation marks is read as itself, and a stray byte as the
replacement character. -/
theorem readsCharacter_jsonCharacter (c : Character) (r : List Char) :
    ReadsCharacter (Text.jsonCharacter c ++ r) c.toChar r := by
  cases c with
  | stray b => exact .plain (by decide) (by decide) (by decide)
  | scalar c =>
    have hcode {n : Nat} {d : Char} (hc : c.toNat = n) (hd : d.toNat = n) : d = c :=
      Char.toNat_inj.mp (hd.trans hc.symm)
    simp only [Text.jsonCharacter, Character.toChar]
    split_ifs with hquote hslash hb hf hn hr ht hneeds
    · exact .short (by rw [hquote]; rfl)
    · exact .short (by rw [hslash]; rfl)
    · exact .short (by rw [← hcode (d := '\x08') hb rfl]; rfl)
    · exact .short (by rw [← hcode (d := '\x0c') hf rfl]; rfl)
    · exact .short (by rw [hn]; rfl)
    · exact .short (by rw [hr]; rfl)
    · exact .short (by rw [ht]; rfl)
    · apply readsCharacter_escapeCode
      simp only [Text.needsCode, Bool.or_eq_true, decide_eq_true_eq, beq_iff_eq] at hneeds
      rcases hneeds with ((((h | rfl) | rfl) | rfl) | h) | h
      · omega
      · decide
      · decide
      · decide
      · omega
      · omega
    · refine .plain ?_ hquote hslash
      simp only [Text.needsCode, Bool.or_eq_true, decide_eq_true_eq, not_or] at hneeds
      omega

/-- Characters that were written in quotation marks are read again, strays as the replacement
character. -/
theorem readsCharacters_flatMap (cs : List Character) (r : List Char) :
    ReadsCharacters (cs.flatMap Text.jsonCharacter ++ '"' :: r) (cs.map Character.toChar) r := by
  induction cs with
  | nil => exact .close
  | cons c cs ih =>
    rw [List.flatMap_cons, List.append_assoc]
    exact .more (readsCharacter_jsonCharacter c _) ih

/-- The characters of a text as a JSON string. -/
def stringChars (t : Text) : List Char := '"' :: (t.characters.flatMap Text.jsonCharacter ++ ['"'])

/-- A text that was written is read as a string of its characters. -/
theorem writes_stringChars (t : Text) : Writes (stringChars t) (.string t.chars) := by
  intro r _
  rw [stringChars, List.cons_append, List.append_assoc]
  exact .string (readsCharacters_flatMap t.characters r)

/-- Digits of a positive number do not begin with zero. -/
theorem head?_toDigits_ne {n : Nat} (h : 0 < n) : (Nat.toDigits 10 n).head? ≠ some '0' := by
  induction n using Nat.strongRecOn with
  | ind n ih =>
    rw [Nat.toDigits_eq_if (by decide)]
    split_ifs with hlt
    · have hall : ∀ n : Fin 10, 0 < n.val → [Nat.digitChar n].head? ≠ some '0' := by decide
      exact hall ⟨n, hlt⟩ h
    · rw [List.head?_append_of_ne_nil _ Nat.toDigits_ne_nil]
      exact ih (n / 10) (by omega) (by omega)

/-- The digits of a number are read as the number. -/
theorem readsUnsigned_toDigits (n : Nat) {r : List Char} (hr : Ends r) :
    ReadsUnsigned (Nat.toDigits 10 n ++ r) n r := by
  have hdigits : ∀ c ∈ Nat.toDigits 10 n, c.isDigit = true := fun c hc =>
    Nat.isDigit_of_mem_toDigits (by decide) (by decide) hc
  obtain ⟨c, u, rfl, hc⟩ := hr
  have hstop : c.isDigit = false ∧ c ≠ '.' ∧ c ≠ 'e' ∧ c ≠ 'E' := by
    rcases hc with rfl | rfl | rfl <;> decide
  have htake : digits (Nat.toDigits 10 n ++ c :: u) = Nat.toDigits 10 n := by
    rw [digits, List.takeWhile_append_of_pos hdigits,
      List.takeWhile_cons_of_neg (by simp [hstop.1]), List.append_nil]
  have hdrop : skipDigits (Nat.toDigits 10 n ++ c :: u) = c :: u := by
    rw [skipDigits, List.dropWhile_append_of_pos hdigits,
      List.dropWhile_cons_of_neg (by simp [hstop.1])]
  have hfraction : ReadsFraction (skipDigits (Nat.toDigits 10 n ++ c :: u)) [] (c :: u) := by
    rw [hdrop]
    exact .none (by simp [hstop.2.1])
  have hexponent : ReadsExponent (c :: u) 0 (c :: u) :=
    .none (by simp [hstop.2.2.1]) (by simp [hstop.2.2.2])
  have hread : ReadsUnsigned (Nat.toDigits 10 n ++ c :: u) _ (c :: u) :=
    .mk (by rw [htake]; exact Nat.toDigits_ne_nil) ?_ hfraction hexponent
  · rw [htake, List.append_nil, Nat.ofDigitChars_ten_toDigits] at hread
    simpa [Decimal.value] using hread
  · rw [htake]
    intro hzero
    rcases Nat.eq_zero_or_pos n with rfl | hpos
    · rfl
    · exact absurd hzero (head?_toDigits_ne hpos)

/-- The digits of an integer, with a minus sign below zero. -/
def integerChars (n : Int) : List Char :=
  if n < 0 then '-' :: Nat.toDigits 10 n.natAbs else Nat.toDigits 10 n.natAbs

/-- An integer that was written is read as this integer. -/
theorem writes_integerChars (n : Int) : Writes (integerChars n) (.number n) := by
  intro r hr
  have hread := readsUnsigned_toDigits n.natAbs hr
  unfold integerChars
  split_ifs with hn
  · have hvalue : (n : ℚ) = -(n.natAbs : ℚ) := by
      rw [← Int.cast_natCast n.natAbs, ← Int.cast_neg]
      congr 1
      omega
    rw [hvalue]
    exact .number (.minus hread)
  · have hvalue : (n : ℚ) = (n.natAbs : ℚ) := by
      rw [← Int.cast_natCast n.natAbs]
      congr 1
      omega
    rw [hvalue]
    exact .number (.plain hread)

/-- Whether a character stands for itself in quotation marks. -/
def isPlain (c : Char) : Bool := 0x20 ≤ c.toNat && c != '"' && c != '\\'

/-- A member of an object as it is written: its name, which needs no escapes, and the characters
that its value is read from. -/
structure WrittenMember where
  name : List Char
  chars : List Char
  value : Json
  plain : name.all isPlain = true
  writes : Writes chars value

namespace WrittenMember

/-- The characters of a member. -/
def written (m : WrittenMember) : List Char := '"' :: (m.name ++ '"' :: ':' :: m.chars)

/-- The characters of members, with commas between them. -/
def writtenAll : List WrittenMember → List Char
  | [] => []
  | m :: ms => m.written ++ ms.flatMap fun m => ',' :: m.written

/-- A name without escapes is read as it stands. -/
theorem readsCharacters_name {name : List Char} (h : name.all isPlain = true) (r : List Char) :
    ReadsCharacters (name ++ '"' :: r) name r := by
  induction name with
  | nil => exact .close
  | cons c name ih =>
    rw [List.all_cons, Bool.and_eq_true] at h
    obtain ⟨hc, hname⟩ := h
    simp only [isPlain, Bool.and_eq_true, decide_eq_true_eq, bne_iff_ne] at hc
    exact .more (.plain hc.1.1 hc.1.2 hc.2) (ih hname)

/-- A member that was written is read as this member. -/
theorem reads (m : WrittenMember) {r : List Char} (hr : Ends r) :
    ReadsMember (m.written ++ r) (m.name, m.value) r := by
  have hvalue := m.writes r hr
  rw [written, List.cons_append, List.append_assoc]
  exact .mk (readsCharacters_name m.plain _) rfl (hvalue.skipBlank_eq.symm ▸ hvalue)

/-- What follows a member may follow its value. -/
theorem ends_writtenMore (ms : List WrittenMember) (r : List Char) :
    Ends ((ms.flatMap fun m => ',' :: m.written) ++ '\x7d' :: r) := by
  cases ms with
  | nil => exact ends_brace r
  | cons m ms => exact ends_comma _

/-- Members that were written behind others are read as these members. -/
theorem reads_more (ms : List WrittenMember) (r : List Char) :
    ReadsMoreMembers ((ms.flatMap fun m => ',' :: m.written) ++ '\x7d' :: r)
      (ms.map fun m => (m.name, m.value)) r := by
  induction ms with
  | nil => exact .close rfl
  | cons m ms ih =>
    rw [List.flatMap_cons, List.append_assoc, List.cons_append]
    exact .comma rfl (m.reads (ends_writtenMore ms r)) ih

/-- Members in braces are read as an object. -/
theorem writes_object (ms : List WrittenMember) :
    Writes ('\x7b' :: (writtenAll ms ++ ['\x7d']))
      (.object (ms.map fun m => (m.name, m.value))) := by
  intro r _
  rw [List.cons_append, List.append_assoc]
  cases ms with
  | nil => exact .object (.none rfl)
  | cons m ms =>
    rw [writtenAll, List.append_assoc]
    exact .object (.some (m.reads (ends_writtenMore ms r)) (reads_more ms r))

end WrittenMember

end Json

open Json

namespace TraceEvent

/-- An event has a meaning: an object with its name, category and phase, as they are to be read, its
numbers, and a global scope. -/
def Means (e : TraceEvent) (v : Json) : Prop :=
  ∃ name category phase, e.name.ReadAs name ∧ e.category.ReadAs category ∧ e.phase.ReadAs phase ∧
    v = .object [("name".toList, .string name), ("cat".toList, .string category),
      ("ph".toList, .string phase), ("ts".toList, .number e.time),
      ("pid".toList, .number e.process), ("tid".toList, .number e.thread),
      ("s".toList, .string "g".toList)]

/-- The one meaning of an event. -/
def json (e : TraceEvent) : Json :=
  .object [("name".toList, .string e.name.chars), ("cat".toList, .string e.category.chars),
    ("ph".toList, .string e.phase.chars), ("ts".toList, .number e.time),
    ("pid".toList, .number e.process), ("tid".toList, .number e.thread),
    ("s".toList, .string "g".toList)]

/-- An event means one thing. -/
theorem means_iff {e : TraceEvent} {v : Json} : e.Means v ↔ v = e.json := by
  simp only [Means, Text.readAs_iff]
  constructor
  · rintro ⟨_, _, _, rfl, rfl, rfl, rfl⟩
    rfl
  · rintro rfl
    exact ⟨_, _, _, rfl, rfl, rfl, rfl⟩

/-- Events mean one thing each. -/
theorem forall₂_means_iff {es : List TraceEvent} {vs : List Json} :
    List.Forall₂ Means es vs ↔ vs = es.map json := by
  have hmeans : Means = fun e v => json e = v := by
    funext e v
    exact propext (means_iff.trans eq_comm)
  rw [hmeans, ← List.forall₂_map_left_iff (R := Eq) (f := json), List.forall₂_eq_eq_eq, eq_comm]

/-- A member with a text. -/
def textMember (name : List Char) (hname : name.all isPlain = true) (t : Text) : WrittenMember where
  name := name
  chars := stringChars t
  value := .string t.chars
  plain := hname
  writes := writes_stringChars t

/-- A member with an integer. -/
def integerMember (name : List Char) (hname : name.all isPlain = true) (n : Int) :
    WrittenMember where
  name := name
  chars := integerChars n
  value := .number n
  plain := hname
  writes := writes_integerChars n

/-- The members of the object of an event. -/
def members (e : TraceEvent) : List WrittenMember := [
  textMember "name".toList rfl e.name, textMember "cat".toList rfl e.category,
  textMember "ph".toList rfl e.phase, integerMember "ts".toList rfl e.time,
  integerMember "pid".toList rfl e.process, integerMember "tid".toList rfl e.thread,
  textMember "s".toList rfl "g"]

/-- The characters of an event. -/
def chars (e : TraceEvent) : List Char :=
  '\x7b' :: (WrittenMember.writtenAll e.members ++ ['\x7d'])

/-- The text of an integer is made of its digits. -/
theorem ofInt_eq (n : Int) : Text.ofInt n = Text.ofChars (integerChars n) := by
  rw [Text.ofInt, integerChars, Text.ofString_eq_ofChars]
  split_ifs
  · simp [Nat.repr_eq_ofList_toDigits]
  · simp [Nat.repr_eq_ofList_toDigits]

/-- The text of an event is made of its characters. -/
theorem toJson_eq (e : TraceEvent) : e.toJson = Text.ofChars e.chars := by
  have hstring (t : Text) : t.toJson = Text.ofChars (stringChars t) := rfl
  have hscope : stringChars "g" = ['"', 'g', '"'] := by decide
  simp only [toJson, hstring, ofInt_eq, Text.ofString_eq_ofChars, Text.ofChars_append]
  simp [chars, members, textMember, integerMember, WrittenMember.writtenAll,
    WrittenMember.written, hscope]

/-- An event that was written is read as what it means. -/
theorem writes_chars (e : TraceEvent) : Writes e.chars e.json := by
  have hvalue : e.json = .object (e.members.map fun m => (m.name, m.value)) := by
    simp [json, members, textMember, integerMember]
  rw [hvalue]
  exact WrittenMember.writes_object e.members

end TraceEvent

namespace Trace

/-- The characters of events in a file, with a comma and a line feed between them. -/
def eventChars : List TraceEvent → List Char
  | [] => []
  | e :: es => e.chars ++ es.flatMap fun e => ',' :: '\n' :: e.chars

/-- What follows an event may follow a value. -/
theorem ends_moreChars (es : List TraceEvent) (r : List Char) :
    Ends ((es.flatMap fun e => ',' :: '\n' :: e.chars) ++ ']' :: r) := by
  cases es with
  | nil => exact ends_bracket r
  | cons e es => exact ends_comma _

/-- Events that were written behind others are read as what they mean. The line feed between them is
white space, and an object begins with none. -/
theorem readsMoreItems_eventChars (es : List TraceEvent) (r : List Char) :
    ReadsMoreItems ((es.flatMap fun e => ',' :: '\n' :: e.chars) ++ ']' :: r)
      (es.map TraceEvent.json) r := by
  induction es with
  | nil => exact .close rfl
  | cons e es ih =>
    have hvalue := e.writes_chars _ (ends_moreChars es r)
    rw [List.flatMap_cons, List.append_assoc, List.cons_append, List.cons_append]
    refine .comma rfl ?_ ih
    change ReadsValue (skipBlank (e.chars ++ _)) e.json _
    rw [hvalue.skipBlank_eq]
    exact hvalue

/-- Events in brackets are read as an array. -/
theorem readsItems_eventChars (es : List TraceEvent) (r : List Char) :
    ReadsItems (eventChars es ++ ']' :: r) (es.map TraceEvent.json) r := by
  cases es with
  | nil => exact .none rfl
  | cons e es =>
    have hvalue := e.writes_chars _ (ends_moreChars es r)
    rw [eventChars, List.append_assoc]
    refine .some ?_ (readsMoreItems_eventChars es r)
    rw [hvalue.skipBlank_eq]
    exact hvalue

/-- A file that is open and holds some events. -/
structure Holds (t : Trace) (es : List TraceEvent) : Prop where
  text : t.text = Text.ofChars ('[' :: eventChars es)
  begun : t.begun = !es.isEmpty
  ended : t.ended = false
  closed : t.closed = 0

/-- A new file is open and holds nothing. -/
theorem holds_create : create.Holds [] := ⟨by decide, rfl, rfl, rfl⟩

/-- An event that is written comes behind the others. -/
theorem Holds.add {t : Trace} {es : List TraceEvent} (h : t.Holds es) (e : TraceEvent) :
    (t.add e).Holds (es ++ [e]) := by
  cases es with
  | nil =>
    have hbegun : t.begun = false := h.begun
    constructor
    · simp [Trace.add, hbegun, h.text, e.toJson_eq, Text.ofChars_append, eventChars]
    · simp [Trace.add, hbegun]
    · simp [Trace.add, hbegun, h.ended]
    · simp [Trace.add, hbegun, h.closed]
  | cons first es =>
    have hbegun : t.begun = true := h.begun
    constructor
    · simp [Trace.add, hbegun, h.text, e.toJson_eq, Text.ofString_eq_ofChars, Text.ofChars_append,
        eventChars]
    · simp [Trace.add, hbegun]
    · simp [Trace.add, hbegun, h.ended]
    · simp [Trace.add, hbegun, h.closed]

/-- A new file to which events are added holds these events. -/
theorem holds_foldl (es : List TraceEvent) : (es.foldl Trace.add .create).Holds es := by
  induction es using List.reverseRecOn with
  | nil => exact holds_create
  | append_singleton es e ih =>
    rw [List.foldl_append]
    exact ih.add e

/-- However often a file is closed, only the first time counts. -/
theorem iterate_close {t : Trace} (h : t.ended = false) (n : Nat) :
    close^[n + 1] t =
      { t with text := t.text ++ "]", ended := true, closed := t.closed + 1 } := by
  induction n with
  | zero => simp [close, h]
  | succ n ih =>
    rw [Function.iterate_succ_apply', ih]
    rfl

end Trace

/-- Events are written to a new trace file, which is then closed, once or more often. The file is
closed once, and its text says an array with the meaning of each event, in order, and nothing
else. -/
theorem says_events (events : List TraceEvent) (n : Nat) :
    (Trace.close^[n + 1] (events.foldl Trace.add .create)).closed = 1 ∧
      ∀ v, Says (Trace.close^[n + 1] (events.foldl Trace.add .create)).text v ↔
        ∃ vs, List.Forall₂ TraceEvent.Means events vs ∧ v = .array vs := by
  have hholds := Trace.holds_foldl events
  rw [Trace.iterate_close hholds.ended]
  refine ⟨congrArg Nat.succ hholds.closed, fun v => ?_⟩
  have hsays : Says ((events.foldl Trace.add .create).text ++ "]")
      (.array (events.map TraceEvent.json)) := by
    refine ⟨'[' :: (Trace.eventChars events ++ [']']), [], ?_, ?_, rfl⟩
    · rw [hholds.text, Text.ofString_eq_ofChars, Text.ofChars_append]
      rfl
    · exact .array (Trace.readsItems_eventChars events [])
  simp only [TraceEvent.forall₂_means_iff, exists_eq_left]
  constructor
  · intro h
    exact h.unique hsays
  · rintro rfl
    exact hsays

end TinyScript
