import Offside.Proofs.SourceLines

/-!
# Line breaks are interchangeable

A source is made of lines, and each line but the last is ended by CR, LF or CR LF (`writeLines`).
However the breaks are mixed, the lines that are read are the lines that were written, unless the
CR of one line and the LF of an empty line behind it read as one break. That is the only exception
(`splitLines_unifyBreaks_writeLines`). So all sources with the same lines have the same tokens at
the same places, and a byte order mark before them makes no difference (`lex_writeLines`).
-/

namespace Offside

/-! ## Breaks in a text -/

/-- A line break. -/
inductive LineBreak where
  | cr
  | lf
  | crlf
deriving DecidableEq, Repr

/-- The characters of a line break. -/
def LineBreak.text : LineBreak → Text
  | cr => ['\r']
  | lf => ['\n']
  | crlf => ['\r', '\n']

/-- Taking all breaks in one go is the same as replacing every CR LF first and every CR that is left
after that. -/
theorem unifyBreaks_eq_replace (t : Text) :
    unifyBreaks t = Text.replace ['\r'] ['\n'] (Text.replace ['\r', '\n'] ['\n'] t) := by
  unfold Text.replace
  fun_induction unifyBreaks t with
  | case1 => rfl
  | case2 t ih => simp [Text.replaceFrom, Text.startsWith, Text.cut?, ih]
  | case3 t hlf ih =>
    have hcut : Text.cut? ['\n'] t = none := by
      cases t with
      | nil => rfl
      | cons c t =>
        have hc : '\n' ≠ c := fun hc => hlf t (by rw [hc])
        simp [Text.cut?, hc]
    simp [Text.replaceFrom, Text.startsWith, Text.cut?, hcut, ih]
  | case4 c t _ hcr ih =>
    have hc : '\r' ≠ c := fun hc => hcr hc.symm
    simp [Text.replaceFrom, Text.startsWith, Text.cut?, hc, ih]

theorem unifyBreaks_lf (t : Text) : unifyBreaks ('\n' :: t) = '\n' :: unifyBreaks t :=
  unifyBreaks_append (s := ['\n']) (by decide) t

/-- A break becomes a line feed, unless it is a CR with a LF behind it. -/
theorem unifyBreaks_break {b : LineBreak} {t : Text} (h : b = .cr → t.head? ≠ some '\n') :
    unifyBreaks (b.text ++ t) = '\n' :: unifyBreaks t := by
  cases b with
  | cr =>
    change unifyBreaks ('\r' :: t) = _
    rw [unifyBreaks]
    rintro u rfl
    exact h rfl rfl
  | lf => exact unifyBreaks_lf t
  | crlf => rfl

/-! ## Lines with breaks between them -/

/-- Lines, each with the break that ends it, and a last line behind them. -/
def writeLines (last : Text) : List (Text × LineBreak) → Text
  | [] => last
  | l :: ended => l.1 ++ (l.2.text ++ writeLines last ended)

/-- The breaks of two neighbouring lines do not run together: the second line is not an empty one,
ended by LF, behind a CR. -/
def Apart (l k : Text × LineBreak) : Prop := ¬ (l.2 = .cr ∧ k = ([], .lf))

section Lines

variable {last : Text} {ended : List (Text × LineBreak)}

/-- Lines with nothing but LF between them. -/
theorem writeLines_lf (last : Text) (ls : List Text) :
    writeLines last (ls.map (·, .lf)) = Text.join ['\n'] (ls ++ [last]) := by
  induction ls with
  | nil => rfl
  | cons l ls ih =>
    rw [List.map_cons, writeLines, ih, List.cons_append, Text.join_cons (by simp),
      List.append_assoc]
    rfl

/-- A text of lines starts with LF only if its first line is empty and ended by LF. -/
theorem head?_writeLines_eq_lf (h : ∀ l ∈ ended.map (·.1) ++ [last], '\n' ∉ l ∧ '\r' ∉ l) :
    (writeLines last ended).head? = some '\n' ↔ ended.head? = some ([], .lf) := by
  cases ended with
  | nil =>
    have hlast : '\n' ∉ last := (h last (by simp)).1
    simpa [writeLines] using fun hhead => hlast (List.mem_of_head? hhead)
  | cons l ended =>
    obtain ⟨l, b⟩ := l
    cases l with
    | nil => cases b <;> simp [writeLines, LineBreak.text]
    | cons c l =>
      have hc : c ≠ '\n' := by
        rintro rfl
        exact (h ('\n' :: l) (by simp)).1 (List.mem_cons_self ..)
      simpa [writeLines] using hc

/-- A break that does not run together with the next one ends its line. -/
theorem splitLines_writeLines_cons {l : Text × LineBreak}
    (h : ∀ k ∈ (l :: ended).map (·.1) ++ [last], '\n' ∉ k ∧ '\r' ∉ k)
    (hapart : ∀ k ∈ ended.head?, Apart l k) :
    splitLines (unifyBreaks (writeLines last (l :: ended))) =
      l.1 :: splitLines (unifyBreaks (writeLines last ended)) := by
  obtain ⟨hl, hended⟩ := List.forall_mem_cons.1 h
  have hbreak : l.2 = .cr → (writeLines last ended).head? ≠ some '\n' := by
    intro hcr hhead
    exact hapart _ ((head?_writeLines_eq_lf hended).1 hhead) ⟨hcr, rfl⟩
  rw [writeLines, unifyBreaks_append hl.2, unifyBreaks_break hbreak, splitLines,
    Text.splitAt_append_sep, Text.splitAt_of_not_mem hl.1, splitLines, List.singleton_append]

theorem runTogether_of_not_apart {l : Text × LineBreak} (h : ¬ ∀ k ∈ ended.head?, Apart l k) :
    l.2 = .cr ∧ ended.head? = some ([], .lf) := by
  obtain ⟨k, hk, hcr, rfl⟩ : ∃ k ∈ ended.head?, l.2 = .cr ∧ k = ([], .lf) := by
    simpa [Apart] using h
  exact ⟨hcr, hk⟩

/-- Where two breaks run together a line is lost. -/
theorem length_splitLines_writeLines_cons {l : Text × LineBreak}
    (h : ∀ k ∈ (l :: ended).map (·.1) ++ [last], '\n' ∉ k ∧ '\r' ∉ k)
    (hcr : l.2 = .cr) (hlf : ended.head? = some ([], .lf)) :
    (splitLines (unifyBreaks (writeLines last (l :: ended)))).length =
      (splitLines (unifyBreaks (writeLines last ended))).length := by
  obtain ⟨hl, -⟩ := List.forall_mem_cons.1 h
  cases ended with
  | nil => cases hlf
  | cons k ended =>
    cases hlf
    have hone : unifyBreaks (l.2.text ++ writeLines last (([], .lf) :: ended)) =
        unifyBreaks (writeLines last (([], .lf) :: ended)) := by
      rw [hcr]
      exact (unifyBreaks_lf _).symm
    rw [writeLines, unifyBreaks_append hl.2, hone, splitLines,
      Text.splitAt_append_of_not_mem hl.1, List.length_modifyHead, splitLines]

/-- There are never more lines than were written. -/
theorem length_splitLines_writeLines_le
    (h : ∀ l ∈ ended.map (·.1) ++ [last], '\n' ∉ l ∧ '\r' ∉ l) :
    (splitLines (unifyBreaks (writeLines last ended))).length ≤ ended.length + 1 := by
  induction ended with
  | nil =>
    have hlast := h last (by simp)
    rw [writeLines, unifyBreaks_of_not_mem hlast.2, splitLines, Text.splitAt_of_not_mem hlast.1]
    rfl
  | cons l ended ih =>
    have hle := ih (List.forall_mem_cons.1 h).2
    by_cases hapart : ∀ k ∈ ended.head?, Apart l k
    · rw [splitLines_writeLines_cons h hapart, List.length_cons, List.length_cons]
      omega
    · obtain ⟨hcr, hk⟩ := runTogether_of_not_apart hapart
      rw [length_splitLines_writeLines_cons h hcr hk, List.length_cons]
      omega

/-- The lines that were written are read again exactly if no two breaks run together. -/
theorem splitLines_unifyBreaks_writeLines
    (h : ∀ l ∈ ended.map (·.1) ++ [last], '\n' ∉ l ∧ '\r' ∉ l) :
    splitLines (unifyBreaks (writeLines last ended)) = ended.map (·.1) ++ [last] ↔
      ended.IsChain Apart := by
  induction ended with
  | nil =>
    have hlast := h last (by simp)
    rw [writeLines, unifyBreaks_of_not_mem hlast.2, splitLines, Text.splitAt_of_not_mem hlast.1]
    simp
  | cons l ended ih =>
    have hended := (List.forall_mem_cons.1 h).2
    rw [List.isChain_cons]
    by_cases hapart : ∀ k ∈ ended.head?, Apart l k
    · rw [splitLines_writeLines_cons h hapart, List.map_cons, List.cons_append, List.cons.injEq,
        ih hended]
      exact ⟨fun hchain => ⟨hapart, hchain.2⟩, fun hchain => ⟨rfl, hchain.2⟩⟩
    · obtain ⟨hcr, hk⟩ := runTogether_of_not_apart hapart
      refine iff_of_false ?_ fun hchain => hapart hchain.1
      -- one line is lost here, and the others cannot make up for it
      intro heq
      have hlen := length_splitLines_writeLines_cons h hcr hk
      have hle := length_splitLines_writeLines_le hended
      rw [heq] at hlen
      simp only [List.length_append, List.length_map, List.length_cons, List.length_nil] at hlen
      omega

/-! ## The tokens -/

/-- If the first line starts with no byte order mark, then neither does the text. -/
theorem normalise_writeLines
    (h : ∀ l ∈ (ended.map (·.1) ++ [last]).head?, l.head? ≠ some '\ufeff') :
    normalise (writeLines last ended) = unifyBreaks (writeLines last ended) := by
  have hhead : (writeLines last ended).head? ≠ some '\ufeff' := by
    cases ended with
    | nil => exact h last rfl
    | cons l ended =>
      obtain ⟨l, b⟩ := l
      cases l with
      | nil => cases b <;> simp [writeLines, LineBreak.text]
      | cons c l => exact h (c :: l) rfl
  rw [normalise]
  cases htext : writeLines last ended with
  | nil => rfl
  | cons c t => rw [dropByteOrderMark_cons (by simpa [htext] using hhead)]

/-- If no two breaks run together, the tokens are those of the lines. -/
theorem lex_eq_lexLines (file : Text) (h : ∀ l ∈ ended.map (·.1) ++ [last], '\n' ∉ l ∧ '\r' ∉ l)
    (hmark : ∀ l ∈ (ended.map (·.1) ++ [last]).head?, l.head? ≠ some '\ufeff')
    (hchain : ended.IsChain Apart) :
    lex file (writeLines last ended) = lexLines file 0 0 none (ended.map (·.1) ++ [last]) := by
  rw [lex, normalise_writeLines hmark, (splitLines_unifyBreaks_writeLines h).2 hchain]

theorem isChain_lf (ls : List Text) : (ls.map (·, LineBreak.lf)).IsChain Apart :=
  (List.pairwise_map.2 (List.pairwise_of_forall fun _ _ h => nomatch h.1)).isChain

/-- Lines that hold no line break, the first of them without a byte order mark at its start, are the
lines that are read, whichever breaks stand between them, exactly if nowhere an empty line ended by
LF comes behind a CR. Then the tokens and their places are the same as with LF after every line,
also if there is a byte order mark before the text. -/
theorem lex_writeLines (file : Text) (h : ∀ l ∈ ended.map (·.1) ++ [last], '\n' ∉ l ∧ '\r' ∉ l)
    (hmark : ∀ l ∈ (ended.map (·.1) ++ [last]).head?, l.head? ≠ some '\ufeff') :
    (splitLines (normalise (writeLines last ended)) = ended.map (·.1) ++ [last] ↔
        ended.IsChain Apart) ∧
      (ended.IsChain Apart →
        lex file (writeLines last ended) =
            lex file (Text.join ['\n'] (ended.map (·.1) ++ [last])) ∧
          lex file ('\ufeff' :: writeLines last ended) =
            lex file (Text.join ['\n'] (ended.map (·.1) ++ [last]))) := by
  rw [normalise_writeLines hmark]
  refine ⟨splitLines_unifyBreaks_writeLines h, fun hchain => ?_⟩
  have hlines : ((ended.map (·.1)).map (·, LineBreak.lf)).map (·.1) = ended.map (·.1) := by simp
  have hfeeds : lex file (Text.join ['\n'] (ended.map (·.1) ++ [last])) =
      lexLines file 0 0 none (ended.map (·.1) ++ [last]) := by
    have hlex := @lex_eq_lexLines last ((ended.map (·.1)).map (·, LineBreak.lf)) file
    rw [hlines, writeLines_lf] at hlex
    exact hlex h hmark (isChain_lf _)
  have hplain := (lex_eq_lexLines file h hmark hchain).trans hfeeds.symm
  have hmarked : lex file ('\ufeff' :: writeLines last ended) =
      lex file (writeLines last ended) := by
    rw [lex, lex, normalise_writeLines hmark]
    rfl
  exact ⟨hplain, hmarked.trans hplain⟩

/-- All three breaks, with empty lines between them and a CR in front of a CR LF. -/
theorem lex_writeLines_mixed :
    lex [] "\ufeff%p\r\n\r  %a\r\r\n  x\n\n%b".toList =
      lex [] "%p\n\n  %a\n\n  x\n\n%b".toList := by
  have h := (@lex_writeLines "%b".toList
    [("%p".toList, .crlf), ([], .cr), ("  %a".toList, .cr), ([], .crlf), ("  x".toList, .lf),
      ([], .lf)] [] (by decide) (by rintro l ⟨⟩; decide)).2 (by simp [Apart])
  exact h.2

end Lines
end Offside
