import Mathlib.Data.List.Infix
import Offside.Program.Interpolation

/-!
# Interpolation undoes writing

A text with expressions in it is written as its literals and its expressions in turn: an expression
goes between `#{` and `}`, and a backslash goes before every `#{` of a literal. Interpolation finds
the same literals and expressions again (`interpolate_writeParts`), whatever hashes, braces and
backslashes stand at their borders. Two things are asked of the parts. The braces of an expression
match, since its end is found by counting braces; and a literal before an expression does not end in
a backslash, which would keep the expression literal.
-/

namespace Offside

/-! ## Matching braces -/

namespace Text

/-- The braces of the text match: no start of it closes more than it opens, and the whole text
closes all that it opens. -/
structure BraceBalanced (t : Text) : Prop where
  closed_le : ∀ start, start <+: t → start.count '}' ≤ start.count '{'
  closed_eq : t.count '}' = t.count '{'

/-- Whether braces match is found by looking at every start of the text. -/
instance (t : Text) : Decidable t.BraceBalanced :=
  decidable_of_decidable_of_iff
    (p := (t.inits.all (fun start => start.count '}' ≤ start.count '{') = true) ∧
      t.count '}' = t.count '{') <| by
    rw [List.all_eq_true]
    constructor
    · intro h
      refine ⟨?_, h.2⟩
      intro start hs
      simpa using h.1 start ((List.mem_inits start t).2 hs)
    · intro h
      refine ⟨?_, h.closed_eq⟩
      intro start hs
      simpa using h.closed_le start ((List.mem_inits start t).1 hs)

end Text

/-- A text that closes all but one of the braces around it, and no more on the way, ends just before
the brace that closes the last one. -/
theorem braceEnd_append {depth : Nat} {t : Text} (rest : Text)
    (hstart : ∀ start, start <+: t → start.count '}' < start.count '{' + depth)
    (hall : t.count '}' + 1 = t.count '{' + depth) :
    braceEnd depth (t ++ '}' :: rest) = some (t.length + 1) := by
  induction t generalizing depth with
  | nil =>
    have hdepth : depth = 1 := by simpa using hall.symm
    subst hdepth
    rfl
  | cons c t ih =>
    -- what holds of the starts of the whole text holds of those of its rest, at the next depth
    have hnext : ∀ start, start <+: t →
        (c :: start).count '}' < (c :: start).count '{' + depth := by
      intro start hs
      exact hstart (c :: start) (List.cons_prefix_cons.2 ⟨rfl, hs⟩)
    simp only [List.count_cons] at hnext hall
    rw [List.cons_append, braceEnd, List.length_cons]
    by_cases hopen : c = '{'
    · subst hopen
      simp only [Char.reduceBEq, beq_self_eq_true, if_true, Bool.false_eq_true, if_false]
        at hnext hall
      rw [if_pos rfl, @ih (depth + 1), Option.map_some]
      · intro start hs
        have := hnext start hs
        omega
      · omega
    by_cases hclose : c = '}'
    · subst hclose
      simp only [Char.reduceBEq, beq_self_eq_true, if_true, Bool.false_eq_true, if_false]
        at hnext hall
      have hdepth : 1 < depth := by simpa using hnext [] List.nil_prefix
      rw [if_neg hopen, if_pos rfl, if_neg (by omega), @ih (depth - 1), Option.map_some]
      · intro start hs
        have := hnext start hs
        omega
      · omega
    · simp only [beq_iff_eq, hopen, hclose, if_false, Nat.add_zero] at hnext hall
      rw [if_neg hopen, if_neg hclose, ih hnext hall, Option.map_some]

/-- A text whose braces match, between braces: the end is found right behind it. -/
theorem braceEnd_of_braceBalanced {t : Text} (h : t.BraceBalanced) (rest : Text) :
    braceEnd 1 (t ++ '}' :: rest) = some (t.length + 1) := by
  apply braceEnd_append
  · intro start hs
    have := h.closed_le start hs
    omega
  · rw [h.closed_eq]

/-! ## Literals -/

/-- A literal as it is written: a backslash goes before every `#{`. -/
def guardHashes : Text → Text
  | [] => []
  | '#' :: '{' :: t => '\\' :: '#' :: '{' :: guardHashes t
  | c :: t => c :: guardHashes t

/-- What may follow a literal: nothing, or an expression if the literal does not end in a
backslash. -/
def LiteralEnds (lit rest : Text) : Prop :=
  rest = [] ∨ lit.getLast? ≠ some '\\' ∧ ∃ t, rest = '#' :: '{' :: t

/-- The first character of a literal does not change by writing it, unless it is the hash of a
`#{`. -/
theorem guardHashes_cons {c : Char} {t : Text} (h : c = '#' → ∀ u, t ≠ '{' :: u) :
    guardHashes (c :: t) = c :: guardHashes t := by
  rw [guardHashes]
  rintro u rfl rfl
  exact h rfl u rfl

/-- Where neither a backslash before `#{` nor a `#{` starts, a character is part of a literal. -/
theorem interpolateFrom_cons {c : Char} {t : Text} (hslash : c = '\\' → ∀ u, t ≠ '#' :: '{' :: u)
    (hhash : c = '#' → ∀ u, t ≠ '{' :: u) :
    interpolateFrom (c :: t) = (c :: (interpolateFrom t).1, (interpolateFrom t).2) := by
  rw [interpolateFrom]
  · rintro u rfl rfl
    exact hslash rfl u rfl
  · rintro u rfl rfl
    exact hhash rfl u rfl

theorem interpolateFrom_guarded (t : Text) :
    interpolateFrom ('\\' :: '#' :: '{' :: t) =
      ('#' :: '{' :: (interpolateFrom t).1, (interpolateFrom t).2) := by
  have hbrace : interpolateFrom ('{' :: t) =
      ('{' :: (interpolateFrom t).1, (interpolateFrom t).2) :=
    interpolateFrom_cons (by simp) (by simp)
  rw [interpolateFrom, hbrace]

section Border

variable {c : Char} {lit rest : Text}

theorem LiteralEnds.tail (h : LiteralEnds (c :: lit) rest) : LiteralEnds lit rest := by
  rcases h with h | ⟨hlast, h⟩
  · exact .inl h
  · refine .inr ⟨?_, h⟩
    cases lit with
    | nil => simp
    | cons d lit => rwa [List.getLast?_cons_cons] at hlast

/-- A hash at the end of a literal, or before a character other than a brace, starts no
expression. -/
theorem LiteralEnds.ne_brace (h : LiteralEnds ('#' :: lit) rest) (hne : ∀ u, lit ≠ '{' :: u)
    (u : Text) : guardHashes lit ++ rest ≠ '{' :: u := by
  intro he
  fun_cases guardHashes lit with
  | case1 =>
    -- the expression behind the literal starts with a hash of its own
    rcases h with rfl | ⟨-, t, rfl⟩ <;> cases he
  | case2 t => cases he
  | case3 c t hstart =>
    rw [guardHashes_cons (by rintro rfl u rfl; exact hstart u rfl rfl)] at he
    cases he
    exact hne t rfl

/-- A backslash in a literal stands before no `#{` once the literal is written. -/
theorem LiteralEnds.ne_hash (h : LiteralEnds ('\\' :: lit) rest) (u : Text) :
    guardHashes lit ++ rest ≠ '#' :: '{' :: u := by
  intro he
  fun_cases guardHashes lit with
  | case1 =>
    rcases h with rfl | ⟨hlast, -⟩
    · cases he
    · exact hlast rfl
  | case2 t => cases he
  | case3 c t hstart =>
    rw [guardHashes_cons (by rintro rfl u rfl; exact hstart u rfl rfl)] at he
    obtain ⟨rfl, hbrace⟩ := List.cons.inj he
    refine h.tail.ne_brace ?_ u hbrace
    rintro v rfl
    exact hstart v rfl rfl

/-- A written literal is read as the literal, and what follows it as before. -/
theorem interpolateFrom_guardHashes (h : LiteralEnds lit rest) :
    interpolateFrom (guardHashes lit ++ rest) =
      (lit ++ (interpolateFrom rest).1, (interpolateFrom rest).2) := by
  fun_induction guardHashes lit with
  | case1 => rfl
  | case2 t ih =>
    rw [List.cons_append, List.cons_append, List.cons_append, interpolateFrom_guarded,
      ih h.tail.tail]
    rfl
  | case3 c t hstart ih =>
    have hhash : c = '#' → ∀ u, guardHashes t ++ rest ≠ '{' :: u := by
      rintro rfl
      refine h.ne_brace ?_
      rintro u rfl
      exact hstart u rfl rfl
    have hslash : c = '\\' → ∀ u, guardHashes t ++ rest ≠ '#' :: '{' :: u := by
      rintro rfl
      exact h.ne_hash
    rw [List.cons_append, interpolateFrom_cons hslash hhash, ih h.tail]
    rfl

end Border

/-! ## Literals and expressions in turn -/

/-- An expression, and what follows it. -/
theorem interpolateFrom_expression {source : Text} (h : source.BraceBalanced) (rest : Text) :
    interpolateFrom ('#' :: '{' :: (source ++ '}' :: rest)) =
      ([], .expression source true :: interpolate rest) := by
  have htake : (source ++ '}' :: rest).take source.length = source := List.take_left ..
  have hdrop : (source ++ '}' :: rest).drop (source.length + 1) = rest := by
    rw [← List.drop_drop, List.drop_left]
    rfl
  rw [interpolateFrom, braceEnd_of_braceBalanced h]
  dsimp only
  rw [Nat.add_sub_cancel, htake, hdrop]
  rfl

/-- The text that is written for a literal and the expressions and literals that follow it in
turn. -/
def writeParts : (lit : Text) → (parts : List (Text × Text)) → Text
  | lit, [] => guardHashes lit
  | lit, (source, next) :: parts =>
    guardHashes lit ++ '#' :: '{' :: (source ++ '}' :: writeParts next parts)

/-- The fragments that a literal and the expressions and literals after it stand for. -/
def fragmentsOfParts : (lit : Text) → (parts : List (Text × Text)) → Fragments
  | lit, [] => [.literal lit.escape]
  | lit, (source, next) :: parts =>
    .literal lit.escape :: .expression source true :: fragmentsOfParts next parts

/-- The literals that an expression follows, the last one being followed by none. -/
def literalsBeforeExpressions : (lit : Text) → (parts : List (Text × Text)) → List Text
  | _, [] => []
  | lit, (_, next) :: parts => lit :: literalsBeforeExpressions next parts

/-- A text that is written from literals and expressions is read as these literals, escaped, and
these expressions, if the braces of each expression match and no literal ends in a backslash right
before an expression. -/
theorem interpolate_writeParts {lit : Text} {parts : List (Text × Text)}
    (hbraces : ∀ p ∈ parts, p.1.BraceBalanced)
    (hslash : ∀ l ∈ literalsBeforeExpressions lit parts, l.getLast? ≠ some '\\') :
    interpolate (writeParts lit parts) = fragmentsOfParts lit parts := by
  induction parts generalizing lit with
  | nil =>
    have h : interpolateFrom (guardHashes lit ++ []) = _ := interpolateFrom_guardHashes (.inl rfl)
    rw [List.append_nil] at h
    rw [writeParts, interpolate, h]
    simp [interpolateFrom, fragmentsOfParts]
  | cons p parts ih =>
    obtain ⟨source, next⟩ := p
    obtain ⟨hsource, hbraces⟩ := List.forall_mem_cons.1 hbraces
    obtain ⟨hlit, hslash⟩ := List.forall_mem_cons.1 hslash
    have hends : LiteralEnds lit ('#' :: '{' :: (source ++ '}' :: writeParts next parts)) :=
      .inr ⟨hlit, _, rfl⟩
    rw [writeParts, interpolate, interpolateFrom_guardHashes hends,
      interpolateFrom_expression hsource, ih hbraces hslash]
    simp [fragmentsOfParts]

/-- Literals with a guarded `#{`, a hash right before an expression, and a brace and a backslash at
the end. -/
theorem interpolate_writeParts_of_hashes :
    interpolate "\\\\#\x7b<#\x7bf(\x7bx\x7d)\x7d##\x7ba\x7d\x7d\\".toList =
      [.literal "\\#\x7b&lt;".toList, .expression "f(\x7bx\x7d)".toList true,
        .literal "#".toList, .expression "a".toList true, .literal "\x7d\\".toList] := by
  have hbraces : ∀ p ∈ [("f(\x7bx\x7d)".toList, "#".toList), ("a".toList, "\x7d\\".toList)],
      Text.BraceBalanced p.1 := by decide +kernel
  have hslash : ∀ l ∈ literalsBeforeExpressions "\\#\x7b<".toList
      [("f(\x7bx\x7d)".toList, "#".toList), ("a".toList, "\x7d\\".toList)],
      l.getLast? ≠ some '\\' := by decide +kernel
  exact interpolate_writeParts hbraces hslash

end Offside
