import TinyScript.Proofs.Derivations

/-!
# Reading what is written

The text of an expression that was read is a program again, and it is read as the same tree. The
proof follows the derivation of the expression: the text of every part is derived as the tree of
that part, in which every number is written with digits that are read as that number.
-/

namespace TinyScript

namespace Expr

variable {e e' : Expr}

/-- An expression with the tree of a number is this number. -/
theorem tree_eq_number {x : Float} (h : e.tree = .number x) : ∃ p, e = .number x p := by
  cases e with
  | number y p => exact ⟨p, by rw [Tree.number.inj h]⟩
  | string s p => exact nomatch h
  | word name p => exact nomatch h
  | apply operator args => exact nomatch h

/-- An expression with the tree of a string is this string. -/
theorem tree_eq_string {s : Text} (h : e.tree = .string s) : ∃ p, e = .string s p := by
  cases e with
  | number y p => exact nomatch h
  | string s p => exact ⟨p, by rw [Tree.string.inj h]⟩
  | word name p => exact nomatch h
  | apply operator args => exact nomatch h

/-- An expression with the tree of a word is this word. -/
theorem tree_eq_word {name : Text} (h : e.tree = .word name) : ∃ p, e = .word name p := by
  cases e with
  | number y p => exact nomatch h
  | string s p => exact nomatch h
  | word name p => exact ⟨p, by rw [Tree.word.inj h]⟩
  | apply operator args => exact nomatch h

/-- An expression with the tree of an application is an application with the trees of its parts. -/
theorem tree_eq_apply {t : Tree} {ts : List Tree} (h : e.tree = .apply t ts) :
    ∃ operator args, e = .apply operator args ∧ operator.tree = t ∧ args.map tree = ts := by
  cases e with
  | number y p => exact nomatch h
  | string s p => exact nomatch h
  | word name p => exact nomatch h
  | apply operator args =>
    obtain ⟨hoperator, hargs⟩ := Tree.apply.inj h
    exact ⟨operator, args, rfl, hoperator, by rw [← hargs, trees_eq_map]⟩

mutual

/-- The text of an expression does not depend on its places. -/
theorem toText_congr : (e : Expr) → {e' : Expr} → e'.tree = e.tree → e'.toText = e.toText
  | .number x _, _, h => by
    obtain ⟨p, rfl⟩ := tree_eq_number h
    rfl
  | .string s _, _, h => by
    obtain ⟨p, rfl⟩ := tree_eq_string h
    rfl
  | .word name _, _, h => by
    obtain ⟨p, rfl⟩ := tree_eq_word h
    rfl
  | .apply operator args, _, h => by
    obtain ⟨operator', args', rfl, hoperator, hargs⟩ := tree_eq_apply h
    rw [trees_eq_map] at hargs
    rw [toText_apply, toText_apply, toText_congr operator hoperator, map_toText_congr args hargs]

/-- The texts of expressions do not depend on their places. -/
theorem map_toText_congr : (args : List Expr) → {args' : List Expr} →
    args'.map tree = args.map tree → args'.map toText = args.map toText
  | [], _, h => by
    obtain rfl := List.map_eq_nil_iff.mp h
    rfl
  | e :: rest, _, h => by
    obtain ⟨e', rest', rfl, he, hrest⟩ := List.map_eq_cons_iff.mp h
    rw [List.map_cons, List.map_cons, toText_congr e he, map_toText_congr rest hrest]

end

end Expr

namespace Grammar

open TinyScript.Expr

/-- A gap may stand in front of an expression. -/
theorem Expression.gap {gap s : List UInt8} {t : Tree} (hgap : Gap false gap) :
    Expression s t → Expression (gap ++ s) t
  | .atom hgap' hatom => by
    rw [← List.append_assoc]
    exact .atom (hgap.append hgap') hatom
  | .call hs hgap' hargs => by
    rw [← List.append_assoc]
    exact .call (hs.gap hgap) hgap' hargs

/-- The text of an atom is derived as that atom. -/
theorem Atom.toText {s : List UInt8} {t : Tree} {e : Expr} (h : Atom s t) (he : e.tree = t) :
    Atom e.toText.bytes t := by
  cases h with
  | @string body hbody =>
    obtain ⟨p, rfl⟩ := tree_eq_string he
    exact .string hbody
  | @number whole fraction hne hwhole hfraction hfinite =>
    rw [← Token.numberValue_eq_toDouble] at hfinite he ⊢
    obtain ⟨p, rfl⟩ := tree_eq_number he
    have hunsigned := Token.unsigned_numberValue whole fraction
    have hinf : (Token.numberValue whole fraction).isInf = false := by
      rw [hunsigned.isFinite_eq] at hfinite
      simpa using hfinite
    obtain ⟨whole', fraction', hne', hwhole', hfraction', htext, hvalue⟩ :=
      Token.literal_eq hunsigned hinf
    have hbytes : (Expr.number (Token.numberValue whole fraction) p).toText.bytes =
        Token.numberText whole' fraction' := htext
    rw [hbytes, ← hvalue]
    exact .ofNumberValue hne' hwhole' hfraction' (hvalue ▸ hfinite)
  | word hne hname hfirst =>
    obtain ⟨p, rfl⟩ := tree_eq_word he
    exact .word hne hname hfirst

mutual

/-- The text of an expression that is derived is derived as the same tree. -/
theorem Expression.toText {s : List UInt8} {t : Tree} : Expression s t →
    ∀ {e : Expr}, e.tree = t → Expression e.toText.bytes t
  | .atom _ hatom, _, he => .atom .nil (hatom.toText he)
  | .call hs _ hargs, _, he => by
    obtain ⟨operator, args, rfl, hoperator, htrees⟩ := tree_eq_apply he
    have hbytes : (Expr.apply operator args).toText.bytes = operator.toText.bytes ++
        ([] ++ Token.opening :: (Text.join ", " (args.map Expr.toText) ++ ")").bytes) := by
      rw [toText_apply, Text.append_assoc, Text.append_assoc]
      rfl
    rw [hbytes]
    exact .call (hs.toText hoperator) .nil (hargs.toText htrees)

/-- The text of arguments that are derived, joined by commas, is derived as the same trees. -/
theorem Arguments.toText {s : List UInt8} {ts : List Tree} : Arguments s ts →
    ∀ {args : List Expr}, args.map Expr.tree = ts →
      Arguments (Text.join ", " (args.map Expr.toText) ++ ")").bytes ts
  | .none _, _, htrees => by
    obtain rfl := List.map_eq_nil_iff.mp htrees
    exact .none .nil
  | .some hs hmore, _, htrees => by
    obtain ⟨e, args, rfl, he, hargs⟩ := List.map_eq_cons_iff.mp htrees
    rw [List.map_cons, Text.join_cons, Text.append_assoc, Text.bytes_append, List.map_map]
    exact .some (hs.toText he) (hmore.toText hargs)

/-- The text of arguments behind an argument, each behind a comma, is derived as the same trees. -/
theorem More.toText {s : List UInt8} {ts : List Tree} : More s ts →
    ∀ {args : List Expr}, args.map Expr.tree = ts →
      More (Text.concat (args.map ((fun u => ", " ++ u) ∘ Expr.toText)) ++ ")").bytes ts
  | .close _, _, htrees => by
    obtain rfl := List.map_eq_nil_iff.mp htrees
    exact .close .nil
  | .comma _ hs hmore, _, htrees => by
    obtain ⟨e, args, rfl, he, hargs⟩ := List.map_eq_cons_iff.mp htrees
    have hspace : Expression ([0x20] ++ e.toText.bytes) _ := (hs.toText he).gap (.blank rfl .nil)
    have hcomma := More.comma .nil hspace (hmore.toText hargs)
    rw [List.append_assoc] at hcomma
    rw [List.map_cons, Text.concat_cons, Function.comp_apply, Text.append_assoc, Text.append_assoc]
    exact hcomma

end

mutual

/-- Expressions with one tree that is derived are the same. -/
theorem Expression.same {s : List UInt8} {t : Tree} : Expression s t →
    ∀ {e e' : Expr}, e.tree = t → e'.tree = t → e.same e' = true
  | .atom _ hatom, e, e', he, he' => by
    cases hatom with
    | string _ =>
      obtain ⟨p, rfl⟩ := tree_eq_string he
      obtain ⟨p', rfl⟩ := tree_eq_string he'
      simp [Expr.same]
    | number _ _ _ _ =>
      rw [← Token.numberValue_eq_toDouble] at he he'
      obtain ⟨p, rfl⟩ := tree_eq_number he
      obtain ⟨p', rfl⟩ := tree_eq_number he'
      rw [Expr.same]
      exact (Token.unsigned_numberValue _ _).beq_self
    | word _ _ _ =>
      obtain ⟨p, rfl⟩ := tree_eq_word he
      obtain ⟨p', rfl⟩ := tree_eq_word he'
      simp [Expr.same]
  | .call hs _ hargs, e, e', he, he' => by
    obtain ⟨operator, args, rfl, hoperator, htrees⟩ := tree_eq_apply he
    obtain ⟨operator', args', rfl, hoperator', htrees'⟩ := tree_eq_apply he'
    rw [Expr.same, hs.same hoperator hoperator', hargs.sameAll htrees htrees']
    rfl

/-- Arguments with the same trees that are derived are the same. -/
theorem Arguments.sameAll {s : List UInt8} {ts : List Tree} : Arguments s ts →
    ∀ {args args' : List Expr}, args.map Expr.tree = ts → args'.map Expr.tree = ts →
      Expr.sameAll args args' = true
  | .none _, _, _, h, h' => by
    obtain rfl := List.map_eq_nil_iff.mp h
    obtain rfl := List.map_eq_nil_iff.mp h'
    rfl
  | .some hs hmore, _, _, h, h' => by
    obtain ⟨e, args, rfl, he, hargs⟩ := List.map_eq_cons_iff.mp h
    obtain ⟨e', args', rfl, he', hargs'⟩ := List.map_eq_cons_iff.mp h'
    rw [Expr.sameAll, hs.same he he', hmore.sameAll hargs hargs']
    rfl

/-- Arguments behind an argument with the same trees that are derived are the same. -/
theorem More.sameAll {s : List UInt8} {ts : List Tree} : More s ts →
    ∀ {args args' : List Expr}, args.map Expr.tree = ts → args'.map Expr.tree = ts →
      Expr.sameAll args args' = true
  | .close _, _, _, h, h' => by
    obtain rfl := List.map_eq_nil_iff.mp h
    obtain rfl := List.map_eq_nil_iff.mp h'
    rfl
  | .comma _ hs hmore, _, _, h, h' => by
    obtain ⟨e, args, rfl, he, hargs⟩ := List.map_eq_cons_iff.mp h
    obtain ⟨e', args', rfl, he', hargs'⟩ := List.map_eq_cons_iff.mp h'
    rw [Expr.sameAll, hs.same he he', hmore.sameAll hargs hargs']
    rfl

end

end Grammar

/-- The text of an expression that was read is read as an expression that is the same apart from
places, compared either way, and is written in the same way. -/
theorem parse_toText {src : Text} {e : Expr} (h : parse src = .ok e) :
    ∃ e', parse e.toText = .ok e' ∧ e.same e' = true ∧ e'.same e = true ∧
      e'.toText = e.toText := by
  obtain ⟨s, gap, -, hs, -⟩ := (program_of_parse h).exists_expression
  have hprogram := Grammar.Program.expression (hs.toText rfl) .nil
  rw [List.append_nil] at hprogram
  obtain ⟨e', he', htree⟩ := parse_of_program hprogram
  exact ⟨e', he', hs.same rfl htree, hs.same htree rfl, Expr.toText_congr e htree⟩

/-- A chained call with a comment in front of its second argument list is read again. -/
theorem parse_toText_chained :
    ∃ e e', parse "f( 1.50 ,\"a b\") # twice\n()" = .ok e ∧ e.toText = "f(1.5, \"a b\")()" ∧
      parse e.toText = .ok e' ∧ e.same e' = true ∧ e'.same e = true ∧ e'.toText = e.toText := by
  have h : (parse "f( 1.50 ,\"a b\") # twice\n()").map Expr.toText = .ok "f(1.5, \"a b\")()" := by
    decide +kernel
  cases hparse : parse "f( 1.50 ,\"a b\") # twice\n()" with
  | error fault =>
    rw [hparse] at h
    exact nomatch h
  | ok e =>
    rw [hparse] at h
    obtain ⟨e', hrest⟩ := parse_toText hparse
    exact ⟨e, e', rfl, Except.ok.inj h, hrest⟩

end TinyScript
