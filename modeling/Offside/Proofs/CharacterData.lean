import Mathlib.Data.List.Infix
import Offside.Filter
import Offside.Proofs.Sheet

/-!
# Character data survives its sections

Character data ends at the first `]]>`, so a text that holds one cannot be put into one section. The
filter for character data replaces every `]]>` of the text by one that is divided between two
sections. A reader that knows nothing of this (`CharacterData.Sections`) opens a section, looks for
the first `]]>` and starts anew behind it. It finds sections and nothing else, and their contents
one after the other are the text between two line breaks (`FilterRegistry.cdata_round_trip`).
-/

namespace Offside

/-! ## Replacing what occurs first -/

namespace Text

theorem startsWith_iff {t head : Text} : startsWith t head = true ↔ head <+: t := by
  rw [startsWith, Option.isSome_iff_exists]
  constructor
  · rintro ⟨rest, h⟩
    exact ⟨rest, (cut?_eq_some_iff.1 h).symm⟩
  · rintro ⟨rest, rfl⟩
    exact ⟨rest, cut?_eq_some_iff.2 rfl⟩

/-- The first occurrence of `mark` in `t` stands right behind `before`, and `rest` follows it. -/
structure FirstAt (mark t before rest : Text) : Prop where
  eq : t = before ++ (mark ++ rest)
  first : ∀ n, n < before.length → ¬ mark <+: t.drop n

section FirstAt

variable {mark t before rest : Text}

theorem FirstAt.cons {c : Char} (h : FirstAt mark t before rest) (hc : ¬ mark <+: c :: t) :
    FirstAt mark (c :: t) (c :: before) rest where
  eq := by rw [h.eq]; rfl
  first := by
    intro n hn
    cases n with
    | zero => exact hc
    | succ n => exact h.first n (Nat.lt_of_succ_lt_succ hn)

theorem FirstAt.tail {c : Char} (h : FirstAt mark (c :: t) (c :: before) rest) :
    FirstAt mark t before rest where
  eq := (List.cons.inj h.eq).2
  first := fun n hn => h.first (n + 1) (Nat.succ_lt_succ hn)

/-- A mark that occurs in a text occurs somewhere first. -/
theorem exists_firstAt (h : mark <:+: t) : ∃ before rest, FirstAt mark t before rest := by
  induction t with
  | nil =>
    obtain rfl := List.infix_nil.1 h
    exact ⟨[], [], rfl, by simp⟩
  | cons c t ih =>
    by_cases hc : mark <+: c :: t
    · obtain ⟨rest, hrest⟩ := hc
      exact ⟨[], rest, hrest.symm, by simp⟩
    · have htail : mark <:+: t := (List.infix_cons_iff.1 h).resolve_left hc
      obtain ⟨before, rest, hfirst⟩ := ih htail
      exact ⟨c :: before, rest, hfirst.cons hc⟩

/-- There is no occurrence before the first one. -/
theorem FirstAt.not_infix (h : FirstAt mark t before rest) (hmark : mark ≠ []) :
    ¬ mark <:+: before := by
  rintro ⟨a, b, rfl⟩
  have hlen : a.length < (a ++ mark ++ b).length := by
    have := List.length_pos_iff.2 hmark
    simp only [List.length_append]
    omega
  refine h.first a.length hlen ?_
  rw [h.eq, List.append_assoc, List.append_assoc, List.drop_left]
  exact List.prefix_append ..

/-- What stands first stands at one place only. -/
theorem FirstAt.unique {before' rest' : Text} (h : FirstAt mark t before rest)
    (h' : FirstAt mark t before' rest') : before = before' ∧ rest = rest' := by
  have hle : ∀ {b r b' r'}, FirstAt mark t b r → FirstAt mark t b' r' →
      b'.length ≤ b.length := by
    intro b r b' r' h h'
    by_contra hlt
    refine h'.first b.length (Nat.lt_of_not_le hlt) ?_
    rw [h.eq, List.drop_left]
    exact List.prefix_append ..
  have hlen : before.length = before'.length := Nat.le_antisymm (hle h' h) (hle h h')
  obtain ⟨rfl, htail⟩ := List.append_inj (h.eq.symm.trans h'.eq) hlen
  exact ⟨rfl, List.append_cancel_left htail⟩

end FirstAt

section Replace

variable {old new : Text}

theorem replaceFrom_length (a b : Text) :
    replaceFrom old new a.length (a ++ b) = replaceFrom old new 0 b := by
  induction a with
  | nil => rfl
  | cons c a ih => exact ih

/-- What does not occur is not replaced. -/
theorem replace_of_not_infix {t : Text} (h : ¬ old <:+: t) : replace old new t = t := by
  induction t with
  | nil => rfl
  | cons c t ih =>
    rw [List.infix_cons_iff, not_or, ← startsWith_iff] at h
    rw [replace, replaceFrom, if_neg h.1]
    exact congrArg (c :: ·) (ih h.2)

/-- The first occurrence is replaced, and replacing goes on behind it. -/
theorem replace_of_firstAt {t before rest : Text} (hold : old ≠ [])
    (h : FirstAt old t before rest) :
    replace old new t = before ++ (new ++ replace old new rest) := by
  induction before generalizing t with
  | nil =>
    obtain ⟨c, tail, rfl⟩ := List.exists_cons_of_ne_nil hold
    have hstarts : startsWith (c :: (tail ++ rest)) (c :: tail) = true :=
      startsWith_iff.2 (List.prefix_append ..)
    rw [h.eq, List.nil_append, List.nil_append, List.cons_append, replace, replaceFrom,
      if_pos hstarts]
    exact congrArg (new ++ ·) (replaceFrom_length tail rest)
  | cons c before ih =>
    obtain rfl : t = c :: (before ++ (old ++ rest)) := h.eq
    have hstarts : ¬ startsWith (c :: (before ++ (old ++ rest))) old = true := by
      rw [startsWith_iff]
      exact h.first 0 (Nat.succ_pos _)
    rw [replace, replaceFrom, if_neg hstarts]
    exact congrArg (c :: ·) (ih h.tail)

end Replace
end Text

/-! ## Sections -/

namespace CharacterData

/-- The text consists of complete sections, one right behind the other, with these contents: each is
opened by `<![CDATA[` and ended by the first `]]>` that follows. -/
inductive Sections : Text → List Text → Prop
  | nil : Sections [] []
  | cons {t body rest : Text} {bodies : List Text} :
      Text.FirstAt "]]>".toList t body rest → Sections rest bodies →
      Sections ("<![CDATA[".toList ++ t) (body :: bodies)

/-- The contents of sections can be read in one way only. -/
theorem Sections.unique {t : Text} {bodies bodies' : List Text} (h : Sections t bodies)
    (h' : Sections t bodies') : bodies = bodies' := by
  induction h generalizing bodies' with
  | nil =>
    generalize ht : ([] : Text) = t at h'
    cases h' with
    | nil => rfl
    | cons => simp at ht
  | @cons t body rest bodies hfirst hrest ih =>
    generalize ht : "<![CDATA[".toList ++ t = u at h'
    cases h' with
    | nil => simp at ht
    | @cons t' body' rest' bodies' hfirst' hrest' =>
      obtain rfl := List.append_cancel_left ht
      obtain ⟨rfl, rfl⟩ := hfirst.unique hfirst'
      rw [ih hrest']

/-- The end mark is not in the text. -/
def Free (t : Text) : Prop := ¬ "]]>".toList <:+: t

theorem Free.cons {t : Text} (h : Free t) {c : Char} (hc : c ≠ ']') : Free (c :: t) := by
  rw [Free, List.infix_cons_iff, not_or]
  refine ⟨?_, h⟩
  intro hprefix
  exact hc (List.cons_prefix_cons.1 hprefix).1.symm

/-- The end mark ends with `>`, so it does not reach into a text without one. -/
theorem Free.append {t u : Text} (h : Free t) (hu : '>' ∉ u) : Free (t ++ u) := by
  rintro ⟨a, b, hab⟩
  rcases List.append_eq_append_iff.1 hab with ⟨x, rfl, -⟩ | ⟨x, hx, rfl⟩
  · exact h ⟨a, x, rfl⟩
  · rcases List.eq_nil_or_concat' x with rfl | ⟨y, c, rfl⟩
    · exact h ⟨a, [], by simpa using hx⟩
    · -- the last character of the mark is in `u`
      have hlast : c = '>' := by
        have hlast := congrArg List.getLast? hx
        simpa using hlast.symm
      exact hu (by simp [hlast])

/-- Behind a text without an end mark, the end mark is the first one: it does not overlap itself. -/
theorem Free.firstAt {body : Text} (h : Free body) (rest : Text) :
    Text.FirstAt "]]>".toList (body ++ ("]]>".toList ++ rest)) body rest where
  eq := rfl
  first := by
    intro n hn hprefix
    rw [List.drop_append_of_le_length (Nat.le_of_lt hn)] at hprefix
    have hne : body.drop n ≠ [] := by simpa using hn
    rcases hd : body.drop n with _ | ⟨c, _ | ⟨d, _ | ⟨e, more⟩⟩⟩
    · exact hne hd
    · simp [hd] at hprefix
    · simp [hd] at hprefix
    · have hmark : "]]>".toList <+: body.drop n := by
        rw [hd] at hprefix ⊢
        simpa using hprefix
      exact h (hmark.isInfix.trans (List.drop_suffix n body).isInfix)

/-- A text with its end marks divided, behind a character that is no bracket and between the marks
of a section, is read as sections. -/
theorem exists_sections (c : Char) (hc : c ≠ ']') (s : Text) :
    ∃ bodies, Sections ("<![CDATA[".toList ++ (c ::
        (Text.replace "]]>".toList "]]]]><![CDATA[>".toList s ++ "\n]]>".toList))) bodies ∧
      bodies.flatten = c :: (s ++ ['\n']) := by
  induction hn : s.length using Nat.strong_induction_on generalizing c s with
  | _ n ih =>
    by_cases hmark : "]]>".toList <:+: s
    · obtain ⟨before, rest, hfirst⟩ := Text.exists_firstAt hmark
      have hlen : rest.length < n := by
        rw [← hn, hfirst.eq]
        simp
        omega
      obtain ⟨bodies, hbodies, hflat⟩ := ih _ hlen '>' (by decide) rest rfl
      -- the brackets of the mark end this section, its last character starts the next one
      have hfree : Free (c :: (before ++ "]]".toList)) :=
        (Free.append (hfirst.not_infix (by decide)) (by decide)).cons hc
      refine ⟨(c :: (before ++ "]]".toList)) :: bodies, ?_, ?_⟩
      · rw [Text.replace_of_firstAt (by decide) hfirst]
        have hsections := Sections.cons (hfree.firstAt _) hbodies
        simpa using hsections
      · rw [List.flatten_cons, hflat, hfirst.eq]
        simp
    · have hfree : Free (c :: (s ++ ['\n'])) := (Free.append hmark (by decide)).cons hc
      refine ⟨[c :: (s ++ ['\n'])], ?_, by simp⟩
      rw [Text.replace_of_not_infix hmark]
      have hsections := Sections.cons (hfree.firstAt []) .nil
      simpa using hsections

end CharacterData

/-- The line break behind the opening mark belongs to the first section. -/
theorem Filter.cdata_eq (s : Text) :
    Filter.cdata s = "<![CDATA[".toList ++ ('\n' ::
      (Text.replace "]]>".toList "]]]]><![CDATA[>".toList s ++ "\n]]>".toList)) := by
  have happend : ∀ a r e : Text, a ++ ['\n'] ++ r ++ e = a ++ ('\n' :: (r ++ e)) := by simp
  have hopening : "<![CDATA[\n".toList = "<![CDATA[".toList ++ ['\n'] := by decide
  calc Filter.cdata s
    _ = "<![CDATA[\n".toList ++ Text.replace "]]>".toList "]]]]><![CDATA[>".toList s
          ++ "\n]]>".toList := rfl
    _ = "<![CDATA[".toList ++ ['\n'] ++ Text.replace "]]>".toList "]]]]><![CDATA[>".toList s
          ++ "\n]]>".toList := congrArg (· ++ _ ++ _) hopening
    _ = _ := happend _ _ _

/-- What the filter for character data puts out is read as sections of character data and nothing
else, in one way only, and their contents together are the text between two line breaks. -/
theorem FilterRegistry.cdata_round_trip (s : Text) :
    ∃ f bodies, FilterRegistry.defaults.lookup? "cdata".toList = some f ∧
      CharacterData.Sections (f s) bodies ∧ bodies.flatten = '\n' :: (s ++ ['\n']) ∧
      ∀ bodies', CharacterData.Sections (f s) bodies' → bodies' = bodies := by
  obtain ⟨bodies, hbodies, hflat⟩ := CharacterData.exists_sections '\n' (by decide) s
  have hcdata : CharacterData.Sections (Filter.cdata s) bodies := by
    rw [Filter.cdata_eq]
    exact hbodies
  refine ⟨Filter.cdata, bodies, ?_, hcdata, hflat, ?_⟩
  · rfl
  · intro bodies' h
    exact h.unique hcdata

end Offside
