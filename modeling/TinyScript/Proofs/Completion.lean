import TinyScript.Proofs.NaturalSort
import TinyScript.Proofs.ScopeLaws
import TinyScript.Proofs.Splitting
import TinyScript.Session

/-!
# Completing names

In the bytewise order the names that begin with a text stand together, right where the text itself
would stand. So a scan that starts there and stops at the first name that does not begin with the
text finds them all, whatever the other names are.
-/

namespace TinyScript

/-- A scan starts behind what is below and stops at the first element that is not wanted. It finds
all that is wanted if nothing below is, and if in front of a wanted element there are only such
elements as are below or wanted. By induction on the list: once nothing is below any more, the rest
is scanned as if from its own beginning. -/
theorem takeWhile_dropWhile_eq_filter {α : Type} {below wanted : α → Bool} {xs : List α}
    (hwanted : ∀ x ∈ xs, wanted x = true → below x = false)
    (hbelow : xs.Pairwise fun x y => below y = true → below x = true)
    (hbetween : xs.Pairwise fun x y => below x = false → wanted y = true → wanted x = true) :
    (xs.dropWhile below).takeWhile wanted = xs.filter wanted := by
  induction xs with
  | nil => rfl
  | cons x xs ih =>
    obtain ⟨hbelowx, hbelow⟩ := List.pairwise_cons.mp hbelow
    obtain ⟨hbetweenx, hbetween⟩ := List.pairwise_cons.mp hbetween
    have ih := ih (fun y hy => hwanted y (List.mem_cons_of_mem x hy)) hbelow hbetween
    cases hx : below x with
    | true =>
      have hnot : ¬ wanted x = true := fun h => by simp [hwanted x List.mem_cons_self h] at hx
      rw [List.dropWhile_cons_of_pos hx, ih, List.filter_cons_of_neg hnot]
    | false =>
      have hrest : xs.dropWhile below = xs := by
        cases xs with
        | nil => rfl
        | cons y ys =>
          refine List.dropWhile_cons_of_neg fun hy => ?_
          rw [hbelowx y List.mem_cons_self hy] at hx
          cases hx
      rw [hrest] at ih
      rw [List.dropWhile_cons_of_neg (by simp [hx])]
      cases hw : wanted x with
      | true => rw [List.takeWhile_cons_of_pos hw, List.filter_cons_of_pos hw, ih]
      | false =>
        rw [List.takeWhile_cons_of_neg (by simp [hw]), List.filter_cons_of_neg (by simp [hw]),
          eq_comm, List.filter_eq_nil_iff]
        intro y hy hwy
        rw [hbetweenx y hy hx hwy] at hw
        cases hw

namespace Text

variable {t u start : Text}

/-- A text starts with another one exactly if its bytes do. -/
theorem startsWith_iff : t.startsWith start = true ↔ start.bytes <+: t.bytes := by
  rw [startsWith, Bool.and_eq_true, decide_eq_true_iff, beq_iff_eq, Text.ext_iff, bytes_take,
    size_eq_length, List.prefix_iff_eq_take, eq_comm (a := start.bytes)]
  refine ⟨And.right, fun h => ⟨?_, h⟩⟩
  have hlength := congrArg List.length h
  rw [List.length_take] at hlength
  rw [size_eq_length]
  omega

/-- The bytewise order is transitive. -/
theorem less_trans {v : Text} (h : t.less u = true) (h' : u.less v = true) : t.less v = true := by
  rw [less, beq_iff_eq] at *
  exact Std.TransCmp.lt_trans h h'

/-- A text that begins with another one is not below it. -/
theorem not_less_of_startsWith (h : t.startsWith start = true) : ¬ t.less start = true := by
  obtain ⟨rest, hrest⟩ := startsWith_iff.mp h
  rw [less_iff, ← hrest]
  generalize start.bytes = bs
  induction bs with
  | nil => exact List.not_lex_nil
  | cons b bs ih =>
    intro hless
    cases hless with
    | rel hlt => exact Nat.lt_irrefl _ hlt
    | cons hless => exact ih hless

/-- Between a text and one that begins with it there are only texts that begin with it. -/
theorem startsWith_of_less (hstart : ¬ t.less start = true) (hless : t.less u = true)
    (hu : u.startsWith start = true) : t.startsWith start = true := by
  rw [startsWith_iff] at *
  rw [less_iff] at hstart hless
  obtain ⟨rest, hrest⟩ := hu
  rw [← hrest] at hless
  clear hrest
  generalize t.bytes = as at *
  generalize start.bytes = bs at *
  induction bs generalizing as with
  | nil => exact List.nil_prefix
  | cons b bs ih =>
    cases hless with
    | nil => exact absurd .nil hstart
    | rel hlt => exact absurd (.rel hlt) hstart
    | cons hless =>
      exact List.cons_prefix_cons.mpr ⟨rfl, ih _ (fun hlex => hstart (.cons hlex)) hless⟩

/-- Sorted texts increase bytewise, and none of them comes twice. -/
theorem pairwise_sorted (ts : List Text) : (sorted ts).Pairwise fun t u => t.less u = true := by
  refine (Std.TreeSet.ordered_toList (t := Std.TreeSet.ofList ts order)).imp fun {a b} hab => ?_
  rw [less, hab]
  rfl

/-- The scan finds all texts of an increasing list that begin with the given one. -/
theorem extensions_eq_filter {ts : List Text} (h : ts.Pairwise fun t u => t.less u = true) :
    extensions start ts = ts.filter fun t => t.startsWith start := by
  apply takeWhile_dropWhile_eq_filter
  · exact fun t _ ht => Bool.eq_false_iff.mpr (not_less_of_startsWith ht)
  · exact h.imp fun hless => less_trans hless
  · exact h.imp fun hless ht => startsWith_of_less (Bool.eq_false_iff.mp ht) hless

/-- A list of texts that increases bytewise. -/
def Increasing (ts : List Text) : Prop :=
  ts.Pairwise fun t u => List.Lex (fun a b => a.toNat < b.toNat) t.bytes u.bytes

/-- The extensions of a text that are found among sorted texts increase bytewise. -/
theorem increasing_extensions_sorted (ts : List Text) :
    Increasing (extensions start (sorted ts)) := by
  rw [extensions_eq_filter (pairwise_sorted ts)]
  exact ((pairwise_sorted ts).filter _).imp (less_iff _ _).mp

/-- The extensions of a text that are found among sorted texts are all that there are. -/
theorem mem_extensions_sorted_iff {ts : List Text} :
    t ∈ extensions start (sorted ts) ↔ start.bytes <+: t.bytes ∧ t ∈ ts := by
  rw [extensions_eq_filter (pairwise_sorted ts), List.mem_filter, mem_sorted, startsWith_iff,
    and_comm]

end Text

namespace Store

/-- Looking a name up and listing the names go through the same scopes. -/
theorem isSome_resolveFrom_iff (s : Store) (name : Text) (n : Nat) (r : ScopeRef) :
    (resolveFrom s.scopes name n r).isSome ↔
      ∃ q ∈ chainFrom s.scopes n r, (s.bound? q name).isSome := by
  induction n generalizing r with
  | zero => simp [resolveFrom, chainFrom]
  | succ n ih =>
    cases hr : s.scopes[r]? with
    | none => simp [resolveFrom, chainFrom, hr]
    | some scope =>
      have hbound : s.bound? r name = scope.bindings.get? name := by rw [bound?, hr]; rfl
      cases hname : scope.bindings.get? name <;> cases houter : scope.outer <;>
        simp [resolveFrom, chainFrom, hr, hname, houter, hbound, ih]

/-- The names seen from a scope are those that have a value there. -/
theorem isSome_lookup_iff_mem_visibleNames {s : Store} {r : ScopeRef} {name : Text} :
    (s.lookup r name).isSome ↔ name ∈ s.visibleNames r := by
  rw [mem_visibleNames_iff_exists, lookup, resolve, Option.isSome_map, isSome_resolveFrom_iff,
    chain]

end Store

namespace Catalogue

/-- A declared name. -/
def Declared (name : Text) : Prop := ∃ entry ∈ entries, Text.ofString entry.name = name

/-- The names from a text on are the declared names that begin with it. -/
theorem mem_namesFrom_iff {start name : Text} :
    name ∈ namesFrom start ↔ start.bytes <+: name.bytes ∧ Declared name := by
  rw [namesFrom, names, Text.mem_extensions_sorted_iff, List.mem_map, Declared]

end Catalogue

namespace Session

/-- The characters that end a word. -/
def separators : List Char := [' ', '\t', '\n', '(', ')', ',']

/-- The characters that end a word are the separators. -/
theorem endsWord_iff (c : Char) : endsWord c = true ↔ c ∈ separators := by
  simp [endsWord, separators, or_assoc]

/-- The word reaches back to the nearest separator, or to the beginning of the line. -/
theorem exists_append_wordBefore (line : List Char) (place : Nat) :
    ∃ before, line.take place = before ++ wordBefore line place ∧
      (∀ c ∈ wordBefore line place, c ∉ separators) ∧ ∀ c ∈ before.getLast?, c ∈ separators := by
  refine ⟨((line.take place).reverse.dropWhile fun c => !endsWord c).reverse, ?_, ?_, ?_⟩
  · rw [wordBefore, ← List.reverse_append, List.takeWhile_append_dropWhile, List.reverse_reverse]
  · intro c hc
    have hword := List.all_eq_true.mp List.all_takeWhile c (List.mem_reverse.mp hc)
    rw [← endsWord_iff]
    simpa using hword
  · intro c hc
    rw [List.getLast?_reverse] at hc
    rw [← endsWord_iff]
    have := List.head?_dropWhile_not (fun c => !endsWord c) (line.take place).reverse
    rw [hc] at this
    simpa using this

/-- A name that begins with a word is offered as what comes behind the word, with the replacement
character in place of stray bytes. If the name is made of characters, nothing is lost. -/
structure Offers (word : List Char) (name ending : Text) : Prop where
  spelled : ∃ rest cs, name = Text.ofChars word ++ rest ∧ Text.Spells rest.bytes cs ∧
    ending = Text.ofChars (cs.map Character.toChar)
  whole : ∀ cs, name = Text.ofChars cs → name = Text.ofChars word ++ ending

/-- What is left of a name behind a word is offered for the word, with stray bytes mended. -/
theorem offers_of_startsWith {word : List Char} {name : Text}
    (h : (Text.ofChars word).bytes <+: name.bytes) :
    Offers word name (name.drop (Text.ofChars word).size).mended := by
  have hname : name = Text.ofChars word ++ name.drop (Text.ofChars word).size := by
    obtain ⟨rest, hrest⟩ := h
    apply Text.ext
    rw [Text.bytes_append, Text.bytes_drop, Text.size_eq_length, ← hrest, List.drop_left]
  generalize name.drop (Text.ofChars word).size = rest at *
  constructor
  · refine ⟨rest, rest.characters, hname, Text.spells_iff.mpr rfl, ?_⟩
    rw [Text.mended_eq]
    rfl
  · rintro cs rfl
    obtain ⟨ds, rfl⟩ := Text.encode_prefix_iff.mp h
    have hrest : rest = Text.ofChars ds := by
      rw [← Text.ofChars_append, Text.ext_iff, Text.bytes_append, Text.bytes_append] at hname
      exact Text.ext (List.append_cancel_left hname).symm
    rw [Text.mended_eq, hrest, Text.chars_ofChars, Text.ofChars_append]

/-- A session completes a text to the names that begin with it and are visible, declared, or one of
the two commands behind a dot. -/
theorem mem_complete_iff {s : Session} {start name : Text} :
    name ∈ s.complete start ↔ start.bytes <+: name.bytes ∧
      ((s.store.lookup s.scope name).isSome ∨ Catalogue.Declared name ∨
        Text.bytes "." <+: start.bytes ∧ (name = exitCommand ∨ name = helpCommand)) := by
  have hcommands : name ∈ (if start.startsWith "." then [exitCommand, helpCommand] else []) ↔
      Text.bytes "." <+: start.bytes ∧ (name = exitCommand ∨ name = helpCommand) := by
    rw [← Text.startsWith_iff]
    split <;> simp [*]
  rw [complete, Text.mem_extensions_sorted_iff, List.mem_append, List.mem_append, hcommands,
    ← Store.isSome_lookup_iff_mem_visibleNames, Catalogue.mem_namesFrom_iff, or_assoc]
  refine and_congr_right fun hstart => or_congr_right (or_congr_left ?_)
  exact and_iff_right hstart

end Session

/-- The names that complete a text are those that begin with it and are seen from the scope of the
session or declared, or are commands if the text begins like one. They come in increasing order, and
so do the declared ones alone. At a place in a line the word to its left is completed, which reaches
back to the nearest separator. Each name that completes it is offered without the word, in the same
order. A name that is not made of characters is offered too, though not with its own bytes. -/
theorem completions_sound_complete (s : Session) :
    (∀ start, Text.Increasing (s.complete start) ∧ ∀ name,
      name ∈ s.complete start ↔ start.bytes <+: name.bytes ∧
        ((s.store.lookup s.scope name).isSome ∨ Catalogue.Declared name ∨
          Text.bytes "." <+: start.bytes ∧ (name = ".exit" ∨ name = ".help"))) ∧
    (∀ start, Text.Increasing (Catalogue.namesFrom start) ∧ ∀ name,
      name ∈ Catalogue.namesFrom start ↔ start.bytes <+: name.bytes ∧ Catalogue.Declared name) ∧
    ∀ (line : List Char) (place : Nat), place ≤ line.length →
      ∃ before word, line.take place = before ++ word ∧
        (∀ c ∈ word, c ∉ Session.separators) ∧ (∀ c ∈ before.getLast?, c ∈ Session.separators) ∧
        (s.completeAt line place).2 = place - before.length ∧
        List.Forall₂ (Session.Offers word) (s.complete (Text.ofChars word))
          (s.completeAt line place).1 := by
  refine ⟨fun start => ⟨Text.increasing_extensions_sorted _, fun name => ?_⟩,
    fun start => ⟨Text.increasing_extensions_sorted _, fun name => ?_⟩, ?_⟩
  · exact Session.mem_complete_iff
  · exact Catalogue.mem_namesFrom_iff
  intro line place hplace
  obtain ⟨before, hsplit, hword, hbefore⟩ := Session.exists_append_wordBefore line place
  refine ⟨before, Session.wordBefore line place, hsplit, hword, hbefore, ?_, ?_⟩
  · have hlength := congrArg List.length hsplit
    rw [List.length_take, List.length_append] at hlength
    simp only [Session.completeAt]
    omega
  · rw [Session.completeAt, List.forall₂_map_right_iff, List.forall₂_same]
    intro name hname
    exact Session.offers_of_startsWith (Session.mem_complete_iff.mp hname).1

/-- The word behind a parenthesis is completed by a name of the session and by declared ones. -/
theorem completions_sound_complete_call :
    ∃ s : Session, (s.store.lookup s.scope "reach").isSome ∧
      Text.ofString "reach" ∈ s.complete "re" ∧
      4 ≤ ['f', '(', 'r', 'e'].length ∧
      ∃ before word, ['f', '(', 'r', 'e'] = before ++ word ∧ 2 = 4 - before.length ∧
        List.Forall₂ (Session.Offers word) (s.complete (Text.ofChars word))
          (["ach", "duce", "peat", "place", "verse"].map Text.ofString) := by
  obtain ⟨s, hreach, hendings⟩ : ∃ s : Session, (s.store.lookup s.scope "reach").isSome ∧
      (s.completeAt ['f', '(', 'r', 'e'] 4).1 =
        ["ach", "duce", "peat", "place", "verse"].map Text.ofString :=
    ⟨⟨1, Text.empty, (Store.initial (.fresh none) false).2.define 1 "reach" (.boolean true)⟩,
      by decide +kernel, by decide +kernel⟩
  have h := completions_sound_complete s
  obtain ⟨before, word, hsplit, -, -, hlength, hoffers⟩ :=
    h.2.2 ['f', '(', 'r', 'e'] 4 (Nat.le_refl 4)
  rw [hendings] at hoffers
  exact ⟨s, hreach, ((h.1 "re").2 "reach").mpr ⟨by decide, .inl hreach⟩, Nat.le_refl 4, before,
    word, hsplit, hlength, hoffers⟩

/-- A session that has defined a name of two letters and a stray byte offers it behind the letters,
as the replacement character. -/
theorem completeAt_stray_byte :
    ∃ s, Session.feed .plain ⟨none, none⟩ 100 ⟨1, Text.empty, (Store.initial (.fresh none) false).2⟩
        ("define(re" ++ Text.ofBytes [0xFF] ++ ", 1)") = some (true, s) ∧
      (s.store.lookup s.scope ("re" ++ Text.ofBytes [0xFF])).isSome ∧
      (∀ cs, "re" ++ Text.ofBytes [0xFF] ≠ Text.ofChars cs) ∧
      s.complete "re" = ["reduce", "repeat", "replace", "reverse"].map Text.ofString ++
        ["re" ++ Text.ofBytes [0xFF]] ∧
      s.completeAt ['r', 'e'] 2 =
        (["duce", "peat", "place", "verse", "\uFFFD"].map Text.ofString, 2) := by
  have hstray : ∀ cs, "re" ++ Text.ofBytes [0xFF] ≠ Text.ofChars cs := by
    intro cs hcs
    have hcharacters := congrArg Text.characters hcs
    rw [Text.characters_ofChars] at hcharacters
    have hmem : Character.stray 0xFF ∈ cs.map Character.scalar := by
      rw [← hcharacters]
      decide +kernel
    simp at hmem
  obtain ⟨⟨stay, s⟩, hfeed, hcheck⟩ := (Option.any_eq_true ..).mp (by decide +kernel :
    ((Session.feed .plain ⟨none, none⟩ 100 ⟨1, Text.empty, (Store.initial (.fresh none) false).2⟩
        ("define(re" ++ Text.ofBytes [0xFF] ++ ", 1)")).any fun r => r.1 &&
          (r.2.store.lookup r.2.scope ("re" ++ Text.ofBytes [0xFF])).isSome &&
          decide (r.2.complete "re" =
            ["reduce", "repeat", "replace", "reverse"].map Text.ofString ++
              ["re" ++ Text.ofBytes [0xFF]]) &&
          decide (r.2.completeAt ['r', 'e'] 2 =
            (["duce", "peat", "place", "verse", "\uFFFD"].map Text.ofString, 2))) = true)
  simp only [Bool.and_eq_true, decide_eq_true_eq] at hcheck
  obtain ⟨⟨⟨rfl, hlookup⟩, hnames⟩, hendings⟩ := hcheck
  exact ⟨s, hfeed, hlookup, hstray, hnames, hendings⟩

end TinyScript
