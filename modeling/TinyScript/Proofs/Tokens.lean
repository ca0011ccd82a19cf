import TinyScript.Proofs.Reading

/-!
# Tokens

Every text is a sequence of tokens with gaps between them, whether it is a program or not. A token
is a string, a number, a word or a mark, and each is as long as it can be; a quotation mark that
nothing closes is one up to the end of the text. Tokens are listed with the offsets where they
begin, and a text has only one such list.

What is read as an atom is a token, and where no atom is read, the token there is to blame.
-/

namespace TinyScript

/-- The tokens that are no atoms: parentheses and commas. -/
def Token.isMark (text : List UInt8) : Bool :=
  text == [opening] || text == [closing] || text == [comma]

namespace Cursor

/-- Passing bytes by their number. -/
theorem Spans.advance_eq {s : List UInt8} {c d : Cursor} (h : Spans s c d) :
    c.advance s.length = d := by
  obtain ⟨bytes, p⟩ := c
  obtain rfl : bytes = s ++ d.rest := h.rest
  rw [advance_append, ← h.pos]

end Cursor

namespace Grammar

/-- The first list of bytes is a token in front of the second one. -/
inductive Lexeme : List UInt8 → List UInt8 → Prop where
  | string {body : List UInt8} (hbody : Token.quote ∉ body) (rest : List UInt8) :
      Lexeme (Token.quote :: (body ++ [Token.quote])) rest
  | unclosed {body : List UInt8} (hbody : Token.quote ∉ body) : Lexeme (Token.quote :: body) []
  | number {whole fraction rest : List UInt8} (hne : whole ≠ [])
      (hwhole : ∀ d ∈ whole, Token.isDigit d = true)
      (hfraction : ∀ d ∈ fraction, Token.isDigit d = true)
      (hdigit : ∀ d, rest.head? = some d → Token.isDigit d = false)
      (hpoint : fraction = [] →
        ∀ d tail, rest = Token.point :: d :: tail → Token.isDigit d = false) :
      Lexeme (Token.numberText whole fraction) rest
  | word {name rest : List UInt8} (hne : name ≠ []) (hname : ∀ b ∈ name, Token.isWord b = true)
      (hfirst : ∀ b, name.head? = some b → Token.isDigit b = false) (hrest : Delimited rest) :
      Lexeme name rest
  | mark {b : UInt8} (hb : b = Token.opening ∨ b = Token.closing ∨ b = Token.comma)
      (rest : List UInt8) : Lexeme [b] rest

/-- The first list of bytes is a token in front of the second one, and it is read as a leaf. -/
inductive Leaf (p : Position) : List UInt8 → List UInt8 → Expr → Prop where
  | string {body : List UInt8} (hbody : Token.quote ∉ body) (rest : List UInt8) :
      Leaf p (Token.quote :: (body ++ [Token.quote])) rest (.string (Text.ofBytes body) p)
  | number {whole fraction rest : List UInt8} (hne : whole ≠ [])
      (hwhole : ∀ d ∈ whole, Token.isDigit d = true)
      (hfraction : ∀ d ∈ fraction, Token.isDigit d = true)
      (hdigit : ∀ d, rest.head? = some d → Token.isDigit d = false)
      (hpoint : fraction = [] → ∀ d tail, rest = Token.point :: d :: tail → Token.isDigit d = false)
      (hinf : (Token.numberValue whole fraction).isInf = false) :
      Leaf p (Token.numberText whole fraction) rest (.number (Token.numberValue whole fraction) p)
  | word {name rest : List UInt8} (hne : name ≠ []) (hname : ∀ b ∈ name, Token.isWord b = true)
      (hfirst : ∀ b, name.head? = some b → Token.isDigit b = false) (hrest : Delimited rest) :
      Leaf p name rest (.word (Text.ofBytes name) p)

/-- The tokens of some bytes that begin at an offset, each with the offset where it begins. -/
inductive Tokens : Nat → List UInt8 → List (Nat × List UInt8) → Prop where
  | ends (offset : Nat) {gap : List UInt8} (hgap : Gap true gap) : Tokens offset gap []
  | token {offset : Nat} {gap text rest : List UInt8} {tokens : List (Nat × List UInt8)}
      (hgap : Gap false gap) (htext : Lexeme text rest)
      (hrest : Tokens (offset + gap.length + text.length) rest tokens) :
      Tokens offset (gap ++ (text ++ rest)) ((offset + gap.length, text) :: tokens)

/-- A token begins with a byte that neither is blank nor begins a comment. -/
theorem Lexeme.front {text rest : List UInt8} (h : Lexeme text rest) :
    ∃ b tail, text = b :: tail ∧ Token.isBlank b = false ∧ b ≠ Token.hash := by
  cases h with
  | @string body => exact ⟨Token.quote, body ++ [Token.quote], rfl, rfl, by decide⟩
  | @unclosed body => exact ⟨Token.quote, body, rfl, rfl, by decide⟩
  | @number whole fraction _ hne hwhole =>
    obtain ⟨d, whole, rfl⟩ := List.exists_cons_of_ne_nil hne
    have hd := not_mark (.inl (Token.isWord_of_isDigit (hwhole d List.mem_cons_self)))
    unfold Token.numberText
    split_ifs
    · exact ⟨d, whole, rfl, hd.1, hd.2.1⟩
    · exact ⟨d, _, List.cons_append, hd.1, hd.2.1⟩
  | word hne hname =>
    obtain ⟨b, tail, rfl⟩ := List.exists_cons_of_ne_nil hne
    have hb := not_mark (.inl (hname b List.mem_cons_self))
    exact ⟨b, tail, rfl, hb.1, hb.2.1⟩
  | @mark b hb => exact ⟨b, [], rfl, by rcases hb with rfl | rfl | rfl <;> decide⟩

/-- A gap in front changes no token. -/
theorem Tokens.gap {offset : Nat} {gap rest : List UInt8} {tokens : List (Nat × List UInt8)}
    (h : Tokens (offset + gap.length) rest tokens) (hgap : Gap rest.isEmpty gap) :
    Tokens offset (gap ++ rest) tokens := by
  cases h with
  | ends _ hrest =>
    cases rest with
    | nil => exact .ends offset (by simpa using hgap)
    | cons b rest => exact .ends offset (hgap.append hrest)
  | @token _ gap' text rest tokens hgap' htext hrest =>
    obtain ⟨b, tail, rfl, -⟩ := htext.front
    rw [List.isEmpty_eq_false_iff.mpr (by simp)] at hgap
    have htokens : Tokens offset (gap ++ gap' ++ (b :: tail ++ rest))
        ((offset + (gap ++ gap').length, b :: tail) :: tokens) :=
      .token (hgap.append hgap') htext (by simpa [Nat.add_assoc] using hrest)
    simpa [Nat.add_assoc] using htokens

section Leaves

variable {p : Position} {text rest : List UInt8} {e : Expr}

/-- What is read as a leaf is a token. -/
theorem Leaf.lexeme (h : Leaf p text rest e) : Lexeme text rest := by
  cases h with
  | string hbody rest => exact .string hbody rest
  | number hne hwhole hfraction hdigit hpoint _ =>
    exact .number hne hwhole hfraction hdigit hpoint
  | word hne hname hfirst hrest => exact .word hne hname hfirst hrest

/-- What is read as a leaf is an atom of the grammar. -/
theorem Leaf.atom (h : Leaf p text rest e) : Atom text e.tree := by
  cases h with
  | string hbody rest => exact .string hbody
  | number hne hwhole hfraction _ _ hinf =>
    refine .ofNumberValue hne hwhole hfraction ?_
    rw [(Token.unsigned_numberValue _ _).isFinite_eq, hinf]
    rfl
  | word hne hname hfirst hrest => exact .word hne hname hfirst

/-- A leaf has the place where it begins. -/
theorem Leaf.pos_eq (h : Leaf p text rest e) : e.pos = p := by
  cases h <;> rfl

/-- A token is read as the same leaf where the text behind it is cut off. -/
theorem Leaf.of_append {more : List UInt8} (h : Leaf p text (rest ++ more) e) :
    Leaf p text rest e := by
  have hhead {b : UInt8} (hb : rest.head? = some b) : (rest ++ more).head? = some b := by
    rw [List.head?_append, hb]
    rfl
  cases h with
  | string hbody _ => exact .string hbody rest
  | number hne hwhole hfraction hdigit hpoint hinf =>
    refine .number hne hwhole hfraction (fun d hd => hdigit d (hhead hd)) ?_ hinf
    rintro hnil d tail rfl
    exact hpoint hnil d (tail ++ more) rfl
  | word hne hname hfirst hrest =>
    exact .word hne hname hfirst fun b hb => hrest b (hhead hb)

end Leaves

/-- An atom is no mark. -/
theorem Atom.isMark_eq_false {text : List UInt8} {t : Tree} (h : Atom text t) :
    Token.isMark text = false := by
  obtain ⟨b, tail, rfl, hb⟩ := h.front
  obtain ⟨-, -, hopen, hclose, hcomma⟩ := not_mark hb
  simp [Token.isMark, hopen, hclose, hcomma]

end Grammar

namespace Token

/-- A run of bytes of a class ends in front of a byte outside it. -/
theorem not_of_head?_dropWhile {p : UInt8 → Bool} {s : List UInt8} {b : UInt8}
    (h : (s.dropWhile p).head? = some b) : p b = false := by
  have hhead := List.head?_dropWhile_not p s
  rw [h] at hhead
  exact hhead

/-- What is read as a number is as long as it can be. -/
theorem number?_longest {bytes whole fraction : List UInt8}
    (h : number? bytes = some (whole, fraction)) :
    ∃ rest, bytes = numberText whole fraction ++ rest ∧
      (∀ d, rest.head? = some d → isDigit d = false) ∧
      (fraction = [] → ∀ d tail, rest = point :: d :: tail → isDigit d = false) := by
  have hbytes := (List.takeWhile_append_dropWhile (p := isDigit) (l := bytes)).symm
  have hstop : ∀ d, (bytes.dropWhile isDigit).head? = some d → isDigit d = false :=
    fun d => not_of_head?_dropWhile
  unfold number? at h
  split at h
  · cases h
  · split at h
    · rename_i b rest hrest
      rw [hrest] at hbytes hstop
      split_ifs at h with hb <;> obtain ⟨rfl, rfl⟩ := Prod.mk.inj (Option.some.inj h)
      · obtain rfl := eq_of_beq hb
        unfold numberText
        split_ifs with hempty
        · refine ⟨point :: rest, hbytes, hstop, ?_⟩
          rintro - d tail ⟨⟩
          by_contra hd
          simp [hd] at hempty
        · refine ⟨rest.dropWhile isDigit, ?_, fun d => not_of_head?_dropWhile, ?_⟩
          · rw [List.append_assoc, List.cons_append, List.takeWhile_append_dropWhile]
            exact hbytes
          · exact fun hnil => absurd (by simp [hnil]) hempty
      · refine ⟨b :: rest, hbytes, hstop, ?_⟩
        rintro - d tail ⟨⟩
        exact absurd (beq_self_eq_true point) hb
    · rename_i hrest
      obtain ⟨rfl, rfl⟩ := Prod.mk.inj (Option.some.inj h)
      refine ⟨_, hbytes, hstop, fun _ d tail htail => ?_⟩
      rw [hrest] at htail
      cases htail

/-- No number begins with a quotation mark. -/
theorem head?_ne_quote_of_number? {bytes : List UInt8} {digits : List UInt8 × List UInt8}
    (h : number? bytes = some digits) : bytes.head? ≠ some quote := by
  intro hquote
  have hnone : number? bytes = none := by
    rw [number?_eq_none_iff]
    intro b hb
    obtain rfl := Option.some.inj (hquote.symm.trans hb)
    decide
  rw [hnone] at h
  cases h

/-- A byte that is no blank and begins neither a comment nor an atom is another mark. -/
theorem mark_of_isWord_eq_false {b : UInt8} (hword : isWord b = false) (hblank : isBlank b = false)
    (hhash : b ≠ hash) (hquote : b ≠ quote) : b = opening ∨ b = closing ∨ b = comma := by
  revert b
  decide +kernel

end Token

namespace Parser

open Cursor Grammar

/-- Reading an atom gives the leaf of the token there. -/
theorem leaf_of_atom {c d : Cursor} {e : Expr} (h : atom c = .ok (e, d)) :
    ∃ text, Spans text c d ∧ Leaf c.pos text d.rest e := by
  unfold atom at h
  split at h
  · rename_i result hstring
    obtain rfl := Except.ok.inj h
    obtain ⟨body, hbody, rfl, hspans⟩ := string?_sound hstring
    exact ⟨_, hspans, .string hbody d.rest⟩
  · split at h
    · rename_i whole fraction hnumber
      obtain ⟨-, hne, hwhole, hfraction⟩ := Token.number?_sound hnumber
      obtain ⟨rest, hrest, hdigit, hpoint⟩ := Token.number?_longest hnumber
      dsimp only at h
      split_ifs at h with hinf
      obtain ⟨rfl, rfl⟩ := Prod.mk.inj (Except.ok.inj h)
      have hspans := spans_advance hrest
      have hbehind := List.append_cancel_left (hrest.symm.trans hspans.rest)
      refine ⟨_, hspans, ?_⟩
      rw [← hbehind]
      exact .number hne hwhole hfraction hdigit hpoint (by simpa using hinf)
    · rename_i hnumber
      split at h
      · cases h
      · rename_i hne
        obtain ⟨rfl, rfl⟩ := Prod.mk.inj (Except.ok.inj h)
        have happend := (@List.takeWhile_append_dropWhile _ Token.isWord c.rest).symm
        have hspans := spans_advance happend
        have hbehind := List.append_cancel_left (happend.symm.trans hspans.rest)
        refine ⟨_, hspans, .word hne ?_ ?_ ?_⟩
        · exact fun b hb => List.all_eq_true.mp List.all_takeWhile b hb
        · intro b hb
          apply (Token.number?_eq_none_iff c.rest).mp hnumber
          rw [happend, List.head?_append_of_ne_nil _ hne, hb]
        · rw [← hbehind]
          exact fun b => Token.not_of_head?_dropWhile

/-- The leaf of a token is read where the token stands. -/
theorem atom_of_leaf {c d : Cursor} {text : List UInt8} {e : Expr} (hspans : Spans text c d)
    (h : Leaf c.pos text d.rest e) : atom c = .ok (e, d) := by
  obtain ⟨bytes, p⟩ := c
  obtain rfl : bytes = text ++ d.rest := hspans.rest
  cases h with
  | string hbody _ =>
    have hread := string?_quoted hbody d.rest p
    rw [← hspans.pos] at hread
    rw [List.cons_append, List.append_assoc, List.singleton_append]
    unfold atom
    rw [hread]
  | number hne hwhole hfraction hdigit hpoint hinf =>
    have hread := Token.number?_of_longest hne hwhole hfraction hdigit hpoint
    rw [atom_of_no_quote (Token.head?_ne_quote_of_number? hread), hread]
    simp only [hinf, Bool.false_eq_true, if_false, hspans.advance_eq]
  | word hne hname hfirst hrest =>
    have hhead : (text ++ d.rest).head? = text.head? := List.head?_append_of_ne_nil _ hne
    have hquote : (text ++ d.rest).head? ≠ some Token.quote := by
      rw [hhead]
      intro hquote
      exact absurd (hname _ (List.mem_of_head? hquote)) (by decide)
    have hnumber : Token.number? (text ++ d.rest) = none := by
      rw [Token.number?_eq_none_iff, hhead]
      exact hfirst
    rw [atom_of_no_quote hquote, hnumber]
    simp only [Token.takeWhile_run hname hrest, hspans.advance_eq]

/-- Where no atom is read and the text goes on, there is a token to blame: a string that nothing
closes, or a token that is no atom whatever follows it. -/
theorem atom_error_lexeme {c : Cursor} {fault : Fault} (h : atom c = .error fault)
    (hsettled : Settled c.rest) (hne : c.rest ≠ []) :
    ∃ text rest, c.rest = text ++ rest ∧ Lexeme text rest ∧
      ((∃ body, text = Token.quote :: body ∧ Token.quote ∉ body ∧
          fault = .placed .unterminatedString c.pos) ∨
        fault.Final c.pos ∧ ∃ fault', atom ⟨text, c.pos⟩ = .error fault' ∧ fault'.Final c.pos) := by
  by_cases hquote : c.rest.head? = some Token.quote
  · rw [atom_of_quote hquote] at h
    split at h
    · cases h
    · rename_i hnone
      obtain ⟨body, hbody⟩ := List.head?_eq_some_iff.mp hquote
      have hunclosed := string?_unclosed hbody hnone
      exact ⟨_, [], by rw [hbody, List.append_nil], .unclosed hunclosed,
        .inl ⟨body, rfl, hunclosed, (Except.error.inj h).symm⟩⟩
  · rw [atom_of_no_quote hquote] at h
    split at h
    · rename_i whole fraction hnumber
      obtain ⟨-, hne, hwhole, hfraction⟩ := Token.number?_sound hnumber
      obtain ⟨rest, hrest, hdigit, hpoint⟩ := Token.number?_longest hnumber
      split_ifs at h with hinf
      have hfinal : fault.Final c.pos := by
        obtain rfl := Except.error.inj h
        exact ⟨rfl, rfl, rfl⟩
      have hread : Token.number? (Token.numberText whole fraction) = some (whole, fraction) := by
        have hends : Delimited [] := by rintro _ ⟨⟩
        have hread := Token.number?_numberText hne hwhole hfraction hends
        rwa [List.append_nil] at hread
      refine ⟨_, rest, hrest, .number hne hwhole hfraction hdigit hpoint,
        .inr ⟨hfinal, fault, ?_, hfinal⟩⟩
      rw [atom_of_no_quote (Token.head?_ne_quote_of_number? hread), hread, ← h]
      exact if_pos hinf
    · split at h
      · rename_i hname
        obtain ⟨b, rest, hrest⟩ := List.exists_cons_of_ne_nil hne
        obtain rfl := Except.error.inj h
        have hb : b ≠ Token.quote := by
          rintro rfl
          exact hquote (by rw [hrest]; rfl)
        have hword : Token.isWord b = false := by
          by_contra hword
          simp [hrest, hword] at hname
        have hmark := Token.mark_of_isWord_eq_false hword (hsettled b (by rw [hrest]; rfl)).1
          (hsettled b (by rw [hrest]; rfl)).2 hb
        refine ⟨[b], rest, hrest, .mark hmark rest, .inr ⟨?_, unexpected ⟨[b], c.pos⟩, ?_, ?_⟩⟩
        · rw [unexpected, hrest]
          simp only [beq_eq_false_iff_ne.mpr hb]
          exact ⟨rfl, rfl, rfl⟩
        · rcases hmark with rfl | rfl | rfl <;> rfl
        · rcases hmark with rfl | rfl | rfl <;> exact ⟨rfl, rfl, rfl⟩
      · cases h

end Parser

namespace Grammar

/-- Where the text goes on and no gap begins, a token begins. -/
theorem exists_lexeme {bytes : List UInt8} (hsettled : Settled bytes) (hne : bytes ≠ []) :
    ∃ text rest, bytes = text ++ rest ∧ Lexeme text rest := by
  cases h : Parser.atom ⟨bytes, .start⟩ with
  | ok result =>
    obtain ⟨text, hspans, hleaf⟩ := Parser.leaf_of_atom h
    exact ⟨text, _, hspans.rest, hleaf.lexeme⟩
  | error fault =>
    obtain ⟨text, rest, hrest, htext, -⟩ := Parser.atom_error_lexeme h hsettled hne
    exact ⟨text, rest, hrest, htext⟩

/-- Every text has tokens, by induction on what is left, since a token takes at least one byte. -/
theorem exists_tokens (offset : Nat) (bytes : List UInt8) :
    ∃ tokens, Tokens offset bytes tokens := by
  induction hn : bytes.length using Nat.strong_induction_on generalizing offset bytes with
  | h n ih =>
    obtain ⟨gap, hspans, hsettled, hgap⟩ := (Cursor.mk bytes .start).skipBlank_spec
    have hbytes : bytes = gap ++ (Cursor.mk bytes .start).skipBlank.rest := hspans.rest
    generalize (Cursor.mk bytes .start).skipBlank.rest = behind at hbytes hsettled hgap
    by_cases hend : behind = []
    · subst hend
      exact ⟨[], .ends offset (by simpa [hbytes] using hgap)⟩
    · obtain ⟨text, rest, rfl, htext⟩ := exists_lexeme hsettled hend
      obtain ⟨b, tail, rfl, -⟩ := htext.front
      have hlength : rest.length < n := by
        rw [← hn, hbytes]
        simp only [List.length_append, List.length_cons]
        omega
      obtain ⟨tokens, htokens⟩ := ih _ hlength (offset + gap.length + (b :: tail).length) rest rfl
      rw [hbytes]
      exact ⟨_, .token hgap htext htokens⟩

/-- The length of the token at the front of some bytes. -/
def lexemeLength : List UInt8 → Nat
  | [] => 0
  | b :: tail =>
    if b = Token.quote then
      if Token.quote ∈ tail then (tail.takeWhile (· != Token.quote)).length + 2
      else tail.length + 1
    else
      match Token.number? (b :: tail) with
      | some (whole, fraction) => (Token.numberText whole fraction).length
      | none => max 1 ((b :: tail).takeWhile Token.isWord).length

/-- A token that is no string is a number, or a run of the bytes of words, or a single byte. -/
theorem lexemeLength_of_ne_quote {bytes : List UInt8} (hne : bytes ≠ [])
    (hquote : bytes.head? ≠ some Token.quote) :
    lexemeLength bytes = match Token.number? bytes with
      | some (whole, fraction) => (Token.numberText whole fraction).length
      | none => max 1 (bytes.takeWhile Token.isWord).length := by
  obtain ⟨b, tail, rfl⟩ := List.exists_cons_of_ne_nil hne
  rw [lexemeLength, if_neg (by simpa using hquote)]

/-- How long a token is can be told from the bytes. -/
theorem Lexeme.length_eq {text rest : List UInt8} (h : Lexeme text rest) :
    lexemeLength (text ++ rest) = text.length := by
  obtain ⟨b, tail, htext, -⟩ := h.front
  have hnonempty : text ++ rest ≠ [] := by simp [htext]
  cases h with
  | @string body hbody =>
    have hrun : (body ++ Token.quote :: rest).takeWhile (· != Token.quote) = body :=
      Token.takeWhile_run (fun b hb => by simpa using ne_of_mem_of_not_mem hb hbody)
        (by rintro _ ⟨⟩; rfl)
    simp [lexemeLength, hrun]
  | unclosed hbody => simp [lexemeLength, hbody]
  | number hne hwhole hfraction hdigit hpoint =>
    have hread := Token.number?_of_longest hne hwhole hfraction hdigit hpoint
    rw [lexemeLength_of_ne_quote hnonempty (Token.head?_ne_quote_of_number? hread), hread]
  | word hne hname hfirst hrest =>
    have hhead : (text ++ rest).head? = text.head? := List.head?_append_of_ne_nil _ hne
    have hnumber : Token.number? (text ++ rest) = none := by
      rw [Token.number?_eq_none_iff, hhead]
      exact hfirst
    have hquote : (text ++ rest).head? ≠ some Token.quote := by
      rw [hhead]
      intro hquote
      exact absurd (hname _ (List.mem_of_head? hquote)) (by decide)
    rw [lexemeLength_of_ne_quote hnonempty hquote, hnumber, Token.takeWhile_run hname hrest]
    exact max_eq_right (List.length_pos_iff.mpr hne)
  | @mark mark hb =>
    have hnumber : Token.number? ([mark] ++ rest) = none := by
      rw [Token.number?_eq_none_iff]
      rcases hb with rfl | rfl | rfl <;> (rintro _ ⟨⟩; decide)
    rw [lexemeLength_of_ne_quote hnonempty, hnumber]
    · rcases hb with rfl | rfl | rfl <;> rfl
    · rcases hb with rfl | rfl | rfl <;> exact fun h => absurd (Option.some.inj h) (by decide)

/-- The token in front of some bytes is the only one there. -/
theorem Lexeme.unique {text rest text' rest' : List UInt8} (h : Lexeme text rest)
    (h' : Lexeme text' rest') (hbytes : text ++ rest = text' ++ rest') :
    text = text' ∧ rest = rest' := by
  refine List.append_inj hbytes ?_
  rw [← h.length_eq, ← h'.length_eq, hbytes]

/-- The gap in front of a token is the only one there. -/
theorem Gap.unique {gap gap' rest rest' : List UInt8} (h : Gap rest.isEmpty gap)
    (h' : Gap rest'.isEmpty gap') (hrest : Settled rest) (hrest' : Settled rest')
    (hbytes : gap ++ rest = gap' ++ rest') : gap = gap' ∧ rest = rest' := by
  have hskip := Cursor.skipBlank_gap h hrest .start
  rw [hbytes, Cursor.skipBlank_gap h' hrest' .start] at hskip
  obtain ⟨rfl, -⟩ := Cursor.mk.inj hskip
  exact ⟨List.append_cancel_right hbytes, rfl⟩

/-- A token stands where no gap goes on and the text does. -/
theorem Lexeme.stands {text rest : List UInt8} (h : Lexeme text rest) :
    Settled (text ++ rest) ∧ (text ++ rest).isEmpty = false := by
  obtain ⟨b, tail, rfl, hblank, hhash⟩ := h.front
  exact ⟨settled_cons hblank hhash, rfl⟩

/-- A gap in front of a token does not go on up to the end. -/
theorem Lexeme.not_gap {gap text rest : List UInt8} (h : Lexeme text rest) (hgap : Gap false gap) :
    ¬ Gap true (gap ++ (text ++ rest)) := by
  intro hend
  have hnil : Gap ([] : List UInt8).isEmpty (gap ++ (text ++ rest)) := hend
  rw [← h.stands.2] at hgap
  have hempty := (hgap.unique hnil h.stands.1 settled_nil (List.append_nil _).symm).2
  exact absurd h.stands.2 (by simp [hempty])

/-- There are no tokens, or there is a first one. -/
theorem Tokens.first {offset : Nat} {bytes : List UInt8} {tokens : List (Nat × List UInt8)}
    (h : Tokens offset bytes tokens) :
    (Gap true bytes ∧ tokens = []) ∨
      ∃ gap text rest more, bytes = gap ++ (text ++ rest) ∧ Gap false gap ∧ Lexeme text rest ∧
        Tokens (offset + gap.length + text.length) rest more ∧
          tokens = (offset + gap.length, text) :: more := by
  cases h with
  | ends _ hgap => exact .inl ⟨hgap, rfl⟩
  | token hgap htext hrest => exact .inr ⟨_, _, _, _, rfl, hgap, htext, hrest, rfl⟩

/-- A text has one list of tokens. -/
theorem Tokens.unique {offset : Nat} {bytes : List UInt8} {tokens tokens' : List (Nat × List UInt8)}
    (h : Tokens offset bytes tokens) (h' : Tokens offset bytes tokens') : tokens = tokens' := by
  induction h generalizing tokens' with
  | ends offset hgap =>
    rcases h'.first with ⟨-, rfl⟩ | ⟨gap', text', rest', more', rfl, hgap', htext', -, -⟩
    · rfl
    · exact absurd hgap (htext'.not_gap hgap')
  | token hgap htext _ ih =>
    rcases h'.first with ⟨hend, -⟩ | ⟨gap', text', rest', more', hbytes, hgap', htext', hrest', rfl⟩
    · exact absurd hend (htext.not_gap hgap)
    · rw [← htext.stands.2] at hgap
      rw [← htext'.stands.2] at hgap'
      obtain ⟨rfl, hbehind⟩ := hgap.unique hgap' htext.stands.1 htext'.stands.1 hbytes
      obtain ⟨rfl, rfl⟩ := htext.unique htext' hbehind
      rw [ih hrest']

end Grammar

end TinyScript
