import TinyScript.Proofs.Gaps
import TinyScript.Proofs.Literals

/-!
# Reading atoms

What is read as an atom is an atom of the grammar, and every atom of the grammar is read as that
atom where no word goes on behind it. A line feed belongs to no number and to no word, so whether
an atom is read, and which, does not depend on the lines that follow, strings without an end apart.
-/

namespace TinyScript

namespace Token

/-- A run of bytes of a class, in front of bytes that do not go on with it. -/
theorem takeWhile_run {p : UInt8 → Bool} {s rest : List UInt8} (hs : ∀ b ∈ s, p b = true)
    (hrest : ∀ b, rest.head? = some b → p b = false) : (s ++ rest).takeWhile p = s := by
  have hstop : rest.takeWhile p = [] := by
    cases rest with
    | nil => rfl
    | cons b rest => simp [hrest b rfl]
  rw [List.takeWhile_append_of_pos hs, hstop, List.append_nil]

/-- What follows a run of bytes of a class. -/
theorem dropWhile_run {p : UInt8 → Bool} {s rest : List UInt8} (hs : ∀ b ∈ s, p b = true)
    (hrest : ∀ b, rest.head? = some b → p b = false) : (s ++ rest).dropWhile p = rest := by
  rw [List.dropWhile_append_of_pos hs]
  cases rest with
  | nil => rfl
  | cons b rest => simp [hrest b rfl]

/-- A byte outside a class ends every run in front of it. -/
theorem takeWhile_stop {p : UInt8 → Bool} {b : UInt8} (hb : p b = false) (s t : List UInt8) :
    (s ++ b :: t).takeWhile p = s.takeWhile p := by
  induction s with
  | nil => simp [hb]
  | cons a s ih => simp only [List.cons_append, List.takeWhile_cons, ih]

/-- A byte outside a class is kept, with all that follows it. -/
theorem dropWhile_stop {p : UInt8 → Bool} {b : UInt8} (hb : p b = false) (s t : List UInt8) :
    (s ++ b :: t).dropWhile p = s.dropWhile p ++ b :: t := by
  induction s with
  | nil => simp [hb]
  | cons a s ih =>
    simp only [List.cons_append, List.dropWhile_cons, ih]
    split_ifs <;> rfl

/-- Digits may stand in words. -/
theorem isWord_of_isDigit {b : UInt8} (h : isDigit b = true) : isWord b = true := by
  revert b
  decide +kernel

/-- What is read as a number stands in front. -/
theorem number?_sound {bytes whole fraction : List UInt8}
    (h : number? bytes = some (whole, fraction)) :
    (∃ rest, bytes = numberText whole fraction ++ rest) ∧ whole ≠ [] ∧
      (∀ d ∈ whole, isDigit d = true) ∧ ∀ d ∈ fraction, isDigit d = true := by
  have hrun (s : List UInt8) : ∀ d ∈ s.takeWhile isDigit, isDigit d = true :=
    fun d hd => List.all_eq_true.mp List.all_takeWhile d hd
  have hbytes := List.takeWhile_append_dropWhile (p := isDigit) (l := bytes)
  unfold number? at h
  split at h
  · exact nomatch h
  · rename_i hne
    split at h
    · rename_i b rest hrest
      split_ifs at h with hb <;> obtain ⟨rfl, rfl⟩ := Prod.mk.inj (Option.some.inj h)
      · refine ⟨?_, fun h => hne h, hrun bytes, hrun rest⟩
        rw [hrest, eq_of_beq hb] at hbytes
        unfold numberText
        split_ifs with hempty
        · exact ⟨point :: rest, hbytes.symm⟩
        · refine ⟨rest.dropWhile isDigit, ?_⟩
          rw [List.append_assoc, List.cons_append, List.takeWhile_append_dropWhile, hbytes]
      · exact ⟨⟨_, hbytes.symm⟩, fun h => hne h, hrun bytes, nofun⟩
    · obtain ⟨rfl, rfl⟩ := Prod.mk.inj (Option.some.inj h)
      exact ⟨⟨_, hbytes.symm⟩, fun h => hne h, hrun bytes, nofun⟩

/-- The text of a number is read as that number if it cannot be longer. -/
theorem number?_of_longest {whole fraction rest : List UInt8} (hne : whole ≠ [])
    (hwhole : ∀ d ∈ whole, isDigit d = true) (hfraction : ∀ d ∈ fraction, isDigit d = true)
    (hdigit : ∀ d, rest.head? = some d → isDigit d = false)
    (hpoint : fraction = [] → ∀ d tail, rest = point :: d :: tail → isDigit d = false) :
    number? (numberText whole fraction ++ rest) = some (whole, fraction) := by
  obtain ⟨d, whole, rfl⟩ := List.exists_cons_of_ne_nil hne
  cases fraction with
  | nil =>
    have htext : numberText (d :: whole) [] = d :: whole := rfl
    unfold number?
    rw [htext, takeWhile_run hwhole hdigit, dropWhile_run hwhole hdigit]
    cases rest with
    | nil => rfl
    | cons b rest =>
      by_cases hb : b = point
      · subst hb
        cases rest with
        | nil => rfl
        | cons d' rest => simp [hpoint rfl d' rest rfl]
      · simp [hb]
  | cons f fraction =>
    have htext : numberText (d :: whole) (f :: fraction) ++ rest =
        (d :: whole) ++ point :: (f :: fraction ++ rest) := by simp [numberText]
    have hstop : ∀ b, (point :: (f :: fraction ++ rest)).head? = some b → isDigit b = false := by
      rintro _ ⟨⟩
      decide
    unfold number?
    rw [htext, takeWhile_run hwhole hstop, dropWhile_run hwhole hstop]
    simp only [beq_self_eq_true, if_true, takeWhile_run hfraction hdigit]

/-- The text of a number is read as that number where no word goes on behind it. -/
theorem number?_numberText {whole fraction rest : List UInt8} (hne : whole ≠ [])
    (hwhole : ∀ d ∈ whole, isDigit d = true) (hfraction : ∀ d ∈ fraction, isDigit d = true)
    (hrest : Grammar.Delimited rest) :
    number? (numberText whole fraction ++ rest) = some (whole, fraction) := by
  refine number?_of_longest hne hwhole hfraction (fun b hb => ?_) ?_
  · by_contra hd
    have := hrest b hb
    rw [isWord_of_isDigit (by simpa using hd)] at this
    exact nomatch this
  · rintro - d tail rfl
    exact absurd (hrest point rfl) (by decide)

/-- No number is read where no digit stands. -/
theorem number?_eq_none_iff (bytes : List UInt8) :
    number? bytes = none ↔ ∀ b, bytes.head? = some b → isDigit b = false := by
  unfold number?
  cases bytes with
  | nil => simp
  | cons b bytes =>
    cases hb : isDigit b with
    | false => simp [hb]
    | true =>
      simp only [List.takeWhile_cons, List.dropWhile_cons, hb, if_true, List.head?_cons]
      constructor
      · intro h
        split at h
        · split_ifs at h
        · exact nomatch h
      · intro h
        exact absurd (h b rfl) (by simp [hb])

/-- A line feed ends a number. -/
theorem number?_lineFeed (s t : List UInt8) : number? (s ++ 0x0A :: t) = number? s := by
  have hstop : isDigit 0x0A = false := by decide
  unfold number?
  rw [takeWhile_stop hstop, dropWhile_stop hstop]
  split
  · rfl
  · cases s.dropWhile isDigit with
    | nil => rfl
    | cons b rest => simp only [List.cons_append, takeWhile_stop hstop]

end Token

namespace Grammar

/-- An atom begins with a quotation mark or a byte of words. -/
theorem Atom.front {s : List UInt8} {t : Tree} (h : Atom s t) :
    ∃ b rest, s = b :: rest ∧ (Token.isWord b = true ∨ b = Token.quote) := by
  cases h with
  | @string body _ => exact ⟨Token.quote, body ++ [Token.quote], rfl, .inr rfl⟩
  | @number whole fraction hne hwhole _ _ =>
    obtain ⟨d, whole, rfl⟩ := List.exists_cons_of_ne_nil hne
    have hd := Token.isWord_of_isDigit (hwhole d List.mem_cons_self)
    unfold Token.numberText
    split_ifs
    · exact ⟨d, whole, rfl, .inl hd⟩
    · exact ⟨d, _, List.cons_append, .inl hd⟩
  | word hne hname _ =>
    obtain ⟨b, rest, rfl⟩ := List.exists_cons_of_ne_nil hne
    exact ⟨b, rest, rfl, .inl (hname b List.mem_cons_self)⟩

/-- A byte that begins an atom is no blank and no other mark. -/
theorem not_mark {b : UInt8} (h : Token.isWord b = true ∨ b = Token.quote) :
    Token.isBlank b = false ∧ b ≠ Token.hash ∧ b ≠ Token.opening ∧ b ≠ Token.closing ∧
      b ≠ Token.comma := by
  revert b
  decide +kernel

/-- No gap begins where an atom begins. -/
theorem Atom.settled {s : List UInt8} {t : Tree} (h : Atom s t) (rest : List UInt8) :
    Settled (s ++ rest) := by
  obtain ⟨b, s, rfl, hb⟩ := h.front
  exact settled_cons (not_mark hb).1 (not_mark hb).2.1

end Grammar

/-- A syntax error at a place that more text cannot mend. -/
structure Fault.Final (fault : Fault) (p : Position) : Prop where
  place : fault.place = some p
  kind : fault.cause.kind = .syntaxError
  complete : fault.cause.isIncomplete = false

namespace Parser

open Cursor Grammar

/-- What is read as a string is a string of the grammar: only a quotation mark ends the run of bytes
behind the first one. -/
theorem string?_sound {c r : Cursor} {e : Expr} (h : string? c = some (e, r)) :
    ∃ body, Token.quote ∉ body ∧ e = .string (Text.ofBytes body) c.pos ∧
      Spans (Token.quote :: (body ++ [Token.quote])) c r := by
  unfold string? at h
  split at h
  · exact nomatch h
  · rename_i b rest hrest
    dsimp only at h
    split_ifs at h with hb hlength
    obtain ⟨rfl, rfl⟩ := Prod.mk.inj (Option.some.inj h)
    set body := rest.takeWhile (· != Token.quote) with hbody
    have hnotMem : Token.quote ∉ body := by
      intro hmem
      have := List.all_eq_true.mp List.all_takeWhile _ hmem
      simp at this
    have happend : body ++ rest.dropWhile (· != Token.quote) = rest :=
      List.takeWhile_append_dropWhile
    obtain ⟨q, tail, hdrop⟩ : ∃ q tail, rest.dropWhile (· != Token.quote) = q :: tail := by
      apply List.exists_cons_of_ne_nil
      intro hnil
      rw [hnil, List.append_nil] at happend
      rw [happend] at hlength
      exact lt_irrefl _ hlength
    have hq : q = Token.quote := by
      have := List.head?_dropWhile_not (· != Token.quote) rest
      rw [hdrop] at this
      simpa using this
    refine ⟨body, hnotMem, rfl, ?_⟩
    have hbytes : c.rest = (Token.quote :: (body ++ [Token.quote])) ++ tail := by
      rw [hrest, eq_of_beq hb, ← happend, hdrop, hq]
      simp
    have hadvance := spans_advance hbytes
    rwa [List.length_cons, List.length_append, List.length_singleton] at hadvance

/-- Every string of the grammar is read as one. -/
theorem string?_quoted {body : List UInt8} (hbody : Token.quote ∉ body) (rest : List UInt8)
    (p : Position) :
    string? ⟨Token.quote :: (body ++ Token.quote :: rest), p⟩ =
      some (.string (Text.ofBytes body) p,
        ⟨rest, p.after (Token.quote :: (body ++ [Token.quote]))⟩) := by
  have hall : ∀ b ∈ body, (b != Token.quote) = true := by
    intro b hb
    simp only [bne_iff_ne]
    rintro rfl
    exact hbody hb
  have hrun : (body ++ Token.quote :: rest).takeWhile (· != Token.quote) = body :=
    Token.takeWhile_run hall (by rintro _ ⟨⟩; rfl)
  have hadvance := advance_append (Token.quote :: (body ++ [Token.quote])) rest p
  rw [List.length_cons, List.length_append, List.length_singleton, List.cons_append,
    List.append_assoc, List.singleton_append] at hadvance
  unfold string?
  simp only [beq_self_eq_true, if_true, hrun, List.length_append, List.length_cons]
  rw [if_pos (by omega), hadvance]

/-- Where no quotation mark stands, no string is read. -/
theorem string?_eq_none {c : Cursor} (h : c.rest.head? ≠ some Token.quote) : string? c = none := by
  unfold string?
  split
  · rfl
  · rename_i b rest hrest
    rw [hrest] at h
    rw [if_neg (by simpa using h)]

/-- A quotation mark that nothing closes opens no string. -/
theorem string?_unclosed {c : Cursor} {body : List UInt8} (hrest : c.rest = Token.quote :: body)
    (hnone : string? c = none) : Token.quote ∉ body := by
  intro hmem
  obtain ⟨front, rest, rfl, hfront⟩ := List.eq_append_cons_of_mem hmem
  obtain ⟨bytes, p⟩ := c
  obtain rfl : bytes = _ := hrest
  rw [string?_quoted hfront] at hnone
  exact nomatch hnone

/-- What is read as an atom is an atom of the grammar. -/
theorem atom_sound {c r : Cursor} {e : Expr} (h : atom c = .ok (e, r)) :
    ∃ s, Spans s c r ∧ Atom s e.tree := by
  unfold atom at h
  split at h
  · rename_i result hstring
    obtain rfl := Except.ok.inj h
    obtain ⟨body, hbody, rfl, hspans⟩ := string?_sound hstring
    exact ⟨_, hspans, .string hbody⟩
  · split at h
    · rename_i whole fraction hnumber
      obtain ⟨⟨rest, hrest⟩, hne, hwhole, hfraction⟩ := Token.number?_sound hnumber
      dsimp only at h
      split_ifs at h with hinf
      obtain ⟨rfl, rfl⟩ := Prod.mk.inj (Except.ok.inj h)
      refine ⟨_, spans_advance hrest, Atom.ofNumberValue hne hwhole hfraction ?_⟩
      rw [(Token.unsigned_numberValue whole fraction).isFinite_eq]
      simpa using hinf
    · rename_i hnumber
      split at h
      · exact nomatch h
      · rename_i hne
        obtain ⟨rfl, rfl⟩ := Prod.mk.inj (Except.ok.inj h)
        have happend := (@List.takeWhile_append_dropWhile _ Token.isWord c.rest).symm
        refine ⟨_, spans_advance happend, .word hne ?_ ?_⟩
        · exact fun b hb => List.all_eq_true.mp List.all_takeWhile b hb
        · intro b hb
          apply (Token.number?_eq_none_iff c.rest).mp hnumber
          rw [happend, List.head?_append_of_ne_nil _ hne, hb]

/-- Away from quotation marks, an atom is a number or a word. -/
theorem atom_of_no_quote {c : Cursor} (h : c.rest.head? ≠ some Token.quote) :
    atom c = match Token.number? c.rest with
      | some (whole, fraction) =>
        if (Token.numberValue whole fraction).isInf then
          .error (.placed (.invalidNumber (Text.ofBytes (Token.numberText whole fraction))) c.pos)
        else .ok (.number (Token.numberValue whole fraction) c.pos,
          c.advance (Token.numberText whole fraction).length)
      | none =>
        match c.rest.takeWhile Token.isWord with
        | [] => .error (unexpected c)
        | name => .ok (.word (Text.ofBytes name) c.pos, c.advance name.length) := by
  unfold atom
  rewrite [string?_eq_none h]
  rfl

/-- At a quotation mark, an atom is a string. -/
theorem atom_of_quote {c : Cursor} (h : c.rest.head? = some Token.quote) :
    atom c = match string? c with
      | some result => .ok result
      | none => .error (.placed .unterminatedString c.pos) := by
  obtain ⟨bytes, p⟩ := c
  obtain ⟨body, rfl⟩ := List.head?_eq_some_iff.mp h
  have hnumber : Token.number? (Token.quote :: body) = none := by
    rw [Token.number?_eq_none_iff]
    rintro _ ⟨⟩
    rfl
  unfold atom
  rw [hnumber]
  rfl

/-- Every atom of the grammar is read as that atom where no word goes on behind it. -/
theorem atom_complete {s rest : List UInt8} {t : Tree} (h : Atom s t) (hrest : Delimited rest)
    (p : Position) :
    ∃ e, atom ⟨s ++ rest, p⟩ = .ok (e, ⟨rest, p.after s⟩) ∧ e.tree = t := by
  cases h with
  | @string body hbody =>
    refine ⟨.string (Text.ofBytes body) p, ?_, rfl⟩
    rw [List.cons_append, List.append_assoc, List.singleton_append]
    unfold atom
    rw [string?_quoted hbody]
  | @number whole fraction hne hwhole hfraction hfinite =>
    rw [← Token.numberValue_eq_toDouble] at hfinite ⊢
    have hnumber := Token.number?_numberText hne hwhole hfraction hrest
    have hinf : (Token.numberValue whole fraction).isInf = false := by
      rw [(Token.unsigned_numberValue whole fraction).isFinite_eq] at hfinite
      simpa using hfinite
    have hhead : (Token.numberText whole fraction ++ rest).head? ≠ some Token.quote := by
      intro hquote
      have hnone := (Token.number?_eq_none_iff (Token.numberText whole fraction ++ rest)).mpr (by
        intro b hb
        obtain rfl := Option.some.inj (hquote.symm.trans hb)
        decide)
      rw [hnone] at hnumber
      exact nomatch hnumber
    refine ⟨.number (Token.numberValue whole fraction) p, ?_, rfl⟩
    rw [atom_of_no_quote hhead, hnumber]
    simp only [hinf, Bool.false_eq_true, if_false]
    rw [advance_append]
  | @word name hne hname hfirst =>
    have hfront : (s ++ rest).head? = s.head? := List.head?_append_of_ne_nil _ hne
    have hhead : (s ++ rest).head? ≠ some Token.quote := by
      rw [hfront]
      intro hquote
      exact absurd (hname _ (List.mem_of_head? hquote)) (by decide)
    have hnumber : Token.number? (s ++ rest) = none := by
      rw [Token.number?_eq_none_iff, hfront]
      exact hfirst
    refine ⟨.word (Text.ofBytes s) p, ?_, rfl⟩
    rw [atom_of_no_quote hhead, hnumber]
    simp only [Token.takeWhile_run hname hrest, advance_append]

/-- Text behind a line feed does not make a byte of words or a mark a quotation mark. -/
theorem head?_lineFeed {c : Cursor} (h : c.rest.head? ≠ some Token.quote) (t : List UInt8) :
    (c.extend (0x0A :: t)).rest.head? ≠ some Token.quote := by
  rw [extend_rest]
  cases hrest : c.rest with
  | nil => exact nofun
  | cons b rest =>
    rw [hrest] at h
    exact h

/-- An atom is read whatever stands behind the line. -/
theorem atom_lineFeed {c r : Cursor} {e : Expr} (h : atom c = .ok (e, r)) (t : List UInt8) :
    atom (c.extend (0x0A :: t)) = .ok (e, r.extend (0x0A :: t)) := by
  by_cases hquote : c.rest.head? = some Token.quote
  · rw [atom_of_quote hquote] at h
    split at h
    · rename_i result hstring
      obtain rfl := Except.ok.inj h
      obtain ⟨body, hbody, rfl, hspans⟩ := string?_sound hstring
      have hextend : c.extend (0x0A :: t) =
          ⟨Token.quote :: (body ++ Token.quote :: (r.rest ++ 0x0A :: t)), c.pos⟩ := by
        rw [extend, hspans.rest]
        simp
      unfold atom
      rw [hextend, string?_quoted hbody, ← hspans.pos]
      rfl
    · cases h
  · rw [atom_of_no_quote hquote] at h
    rw [atom_of_no_quote (head?_lineFeed hquote t), extend_rest, Token.number?_lineFeed,
      Token.takeWhile_stop (by decide)]
    split at h
    · rename_i whole fraction hnumber
      obtain ⟨⟨rest, hrest⟩, -⟩ := Token.number?_sound hnumber
      split_ifs at h with hinf
      obtain ⟨rfl, rfl⟩ := Prod.mk.inj (Except.ok.inj h)
      rw [if_neg hinf, advance_extend (by simp [hrest])]
      rfl
    · rename_i hnumber
      split at h
      · cases h
      · rename_i hne
        obtain ⟨rfl, rfl⟩ := Prod.mk.inj (Except.ok.inj h)
        rw [advance_extend (List.takeWhile_prefix _).length_le]
        rfl

/-- An atom is missing where the text ends or a string is not closed, or because of something in
front of the next line feed. -/
theorem atom_eq_error {c : Cursor} {fault : Fault} (h : atom c = .error fault) :
    (c.rest = [] ∧ fault = .placed .unexpectedEnd c.pos) ∨
      (∃ body, c.rest = Token.quote :: body ∧ Token.quote ∉ body ∧
        fault = .placed .unterminatedString c.pos) ∨
      (fault.Final c.pos ∧
        ∀ t, ∃ fault', atom (c.extend (0x0A :: t)) = .error fault' ∧ fault'.Final c.pos) := by
  by_cases hquote : c.rest.head? = some Token.quote
  · rw [atom_of_quote hquote] at h
    split at h
    · exact nomatch h
    · rename_i hnone
      obtain ⟨body, hbody⟩ := List.head?_eq_some_iff.mp hquote
      exact .inr (.inl ⟨body, hbody, string?_unclosed hbody hnone, (Except.error.inj h).symm⟩)
  · have hextend (t : List UInt8) := atom_of_no_quote (head?_lineFeed hquote t)
    rw [atom_of_no_quote hquote] at h
    simp only [extend_rest, extend_pos, Token.number?_lineFeed,
      Token.takeWhile_stop (show Token.isWord 0x0A = false by decide)] at hextend
    split at h
    · rename_i whole fraction hnumber
      split_ifs at h with hinf
      have hfinal : fault.Final c.pos := by
        obtain rfl := Except.error.inj h
        exact ⟨rfl, rfl, rfl⟩
      refine .inr (.inr ⟨hfinal, fun t => ⟨fault, ?_, hfinal⟩⟩)
      rw [hextend, hnumber, ← h]
      exact if_pos hinf
    · rename_i hnumber
      split at h
      · rename_i hname
        obtain rfl := Except.error.inj h
        cases hrest : c.rest with
        | nil => exact .inl ⟨rfl, by rw [unexpected, hrest]⟩
        | cons b rest =>
          have hb : (b == Token.quote) = false := by simpa [hrest] using hquote
          refine .inr (.inr ⟨?_, fun t => ⟨unexpected (c.extend (0x0A :: t)), ?_, ?_⟩⟩)
          · rw [unexpected, hrest]
            simp only [hb]
            exact ⟨rfl, rfl, rfl⟩
          · rw [hextend, hnumber, hname]
          · rw [unexpected, extend_rest, hrest]
            simp only [List.cons_append, hb]
            exact ⟨rfl, rfl, rfl⟩
      · exact nomatch h

end Parser

end TinyScript
