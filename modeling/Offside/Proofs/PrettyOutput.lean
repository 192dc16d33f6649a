import Offside.Proofs.Sinks

/-!
# Indented output differs in leading spaces only

Every entry of an output may be indented. Whether it is makes no difference to a run but for the
spaces that lines start with: each operation on the output keeps the lines of two outputs the same
but for these spaces (`Renderer.sink_sameLines`), so the same control blocks are entered and the
same failure ends the run. That holds of any program, also inside captured blocks, whose text is put
out again as one entry.
-/

namespace Offside

/-! ## Lines without their leading spaces -/

namespace Text

/-- The lines of a text, without their leading spaces. -/
def flushLines (t : Text) : List Text := (splitAt '\n' t).map (·.dropWhile (· == ' '))

/-- The text without the leading spaces of its lines. -/
def flushLeft (t : Text) : Text := join ['\n'] t.flushLines

theorem splitAt_cons_self (sep : Char) (t : Text) :
    splitAt sep (sep :: t) = [] :: splitAt sep t := by
  simp [splitAt]

theorem splitAt_ne_nil (sep : Char) (t : Text) : splitAt sep t ≠ [] := by
  fun_cases splitAt sep t <;> simp

theorem splitAt_cons_of_ne {sep c : Char} (h : c ≠ sep) (t : Text) :
    splitAt sep (c :: t) = (splitAt sep t).modifyHead (c :: ·) := by
  cases hlines : splitAt sep t with
  | nil => exact absurd hlines (splitAt_ne_nil sep t)
  | cons l ls => simp [splitAt, h, hlines]

theorem not_mem_of_mem_splitAt {sep : Char} {t u : Text} (h : u ∈ splitAt sep t) : sep ∉ u := by
  induction t generalizing u with
  | nil =>
    rw [List.mem_singleton.1 h]
    exact List.not_mem_nil
  | cons c t ih =>
    by_cases hc : c = sep
    · rw [hc, splitAt_cons_self] at h
      rcases List.mem_cons.1 h with rfl | h
      · exact List.not_mem_nil
      · exact ih h
    · rw [splitAt_cons_of_ne hc] at h
      cases hparts : splitAt sep t with
      | nil => exact absurd hparts (splitAt_ne_nil sep t)
      | cons l ls =>
        rw [hparts] at h ih
        rcases List.mem_cons.1 h with rfl | h
        · exact List.not_mem_cons_of_ne_of_not_mem (Ne.symm hc) (ih (List.mem_cons_self ..))
        · exact ih (List.mem_cons_of_mem l h)

theorem splitAt_of_not_mem {sep : Char} {t : Text} (h : sep ∉ t) : splitAt sep t = [t] := by
  induction t with
  | nil => rfl
  | cons c t ih =>
    rw [List.mem_cons, not_or] at h
    rw [splitAt_cons_of_ne (Ne.symm h.1), ih h.2]
    rfl

theorem splitAt_append_sep (sep : Char) (s t : Text) :
    splitAt sep (s ++ sep :: t) = splitAt sep s ++ splitAt sep t := by
  induction s with
  | nil => exact splitAt_cons_self sep t
  | cons c s ih =>
    by_cases h : c = sep
    · rw [h, List.cons_append, splitAt_cons_self, splitAt_cons_self, ih, List.cons_append]
    · rw [List.cons_append, splitAt_cons_of_ne h, splitAt_cons_of_ne h, ih]
      cases hlines : splitAt sep s with
      | nil => exact absurd hlines (splitAt_ne_nil sep s)
      | cons l ls => rfl

/-- What holds no separator belongs to the first part. -/
theorem splitAt_append_of_not_mem {sep : Char} {s : Text} (h : sep ∉ s) (t : Text) :
    splitAt sep (s ++ t) = (splitAt sep t).modifyHead (s ++ ·) := by
  induction s with
  | nil =>
    rw [List.nil_append]
    cases splitAt sep t <;> rfl
  | cons c s ih =>
    rw [List.mem_cons, not_or] at h
    rw [List.cons_append, splitAt_cons_of_ne (Ne.symm h.1), ih h.2]
    cases splitAt sep t <;> rfl

theorem splitAt_replicate_append {sep c : Char} (h : c ≠ sep) (n : Nat) (t : Text) :
    splitAt sep (List.replicate n c ++ t) =
      (splitAt sep t).modifyHead (List.replicate n c ++ ·) :=
  splitAt_append_of_not_mem (fun hmem => h (List.eq_of_mem_replicate hmem).symm) t

theorem flushLines_replicate_append (n : Nat) (t : Text) :
    flushLines (List.replicate n ' ' ++ t) = flushLines t := by
  rw [flushLines, flushLines, splitAt_replicate_append (by decide)]
  cases splitAt '\n' t with
  | nil => rfl
  | cons l ls => simp

theorem join_cons {ts : List Text} (h : ts ≠ []) (sep t : Text) :
    join sep (t :: ts) = t ++ sep ++ join sep ts := by
  cases ts with
  | nil => exact absurd rfl h
  | cons u us => rfl

theorem join_append {ts us : List Text} (ht : ts ≠ []) (hu : us ≠ []) (sep : Text) :
    join sep (ts ++ us) = join sep ts ++ sep ++ join sep us := by
  induction ts with
  | nil => exact absurd rfl ht
  | cons t ts ih =>
    by_cases hts : ts = []
    · rw [hts, List.singleton_append, join_cons hu]
      rfl
    · rw [List.cons_append, join_cons (List.append_ne_nil_of_left_ne_nil hts us), ih hts,
        join_cons hts]
      simp only [List.append_assoc]

/-- Texts with separators between them have the parts of each in turn. -/
theorem splitAt_join_eq_flatMap {sep : Char} {ts : List Text} (h : ts ≠ []) :
    splitAt sep (join [sep] ts) = ts.flatMap (splitAt sep) := by
  induction ts with
  | nil => exact absurd rfl h
  | cons t ts ih =>
    by_cases hmore : ts = []
    · rw [hmore, List.flatMap_singleton]
      rfl
    · rw [join_cons hmore, List.append_assoc, List.singleton_append, splitAt_append_sep, ih hmore,
        List.flatMap_cons]

/-- Parts that hold no separator are found again. -/
theorem splitAt_join {sep : Char} {ts : List Text} (hne : ts ≠ []) (h : ∀ t ∈ ts, sep ∉ t) :
    splitAt sep (join [sep] ts) = ts := by
  have hparts : ts.flatMap (splitAt sep) = ts.flatMap fun t => [t] := by
    rw [List.flatMap_def, List.flatMap_def]
    exact congrArg List.flatten (List.map_congr_left fun t ht => splitAt_of_not_mem (h t ht))
  rw [splitAt_join_eq_flatMap hne, hparts, List.flatMap_singleton']

/-- The entries of an output, one below the other, have the lines of each in turn. -/
theorem flushLines_join {ts : List Text} (h : ts ≠ []) :
    flushLines (join ['\n'] ts) = ts.flatMap flushLines := by
  rw [flushLines, splitAt_join_eq_flatMap h, List.map_flatMap]
  rfl

theorem replace_newline_cons (new : Text) (c : Char) (t : Text) :
    replace ['\n'] new (c :: t) =
      if c = '\n' then new ++ replace ['\n'] new t else c :: replace ['\n'] new t := by
  by_cases h : c = '\n'
  · simp [replace, replaceFrom, startsWith, cut?, h]
  · simp [replace, replaceFrom, startsWith, cut?, h, Ne.symm h]

/-- Spaces after every line break are at the start of every line but the first. -/
theorem exists_lines_replace_newline (n : Nat) (t : Text) :
    ∃ l ls, splitAt '\n' t = l :: ls ∧
      splitAt '\n' (replace ['\n'] ('\n' :: List.replicate n ' ') t) =
        l :: ls.map (List.replicate n ' ' ++ ·) := by
  induction t with
  | nil => exact ⟨[], [], rfl, rfl⟩
  | cons c t ih =>
    obtain ⟨l, ls, before, after⟩ := ih
    rw [replace_newline_cons]
    by_cases h : c = '\n'
    · refine ⟨[], l :: ls, ?_, ?_⟩
      · rw [h, splitAt_cons_self, before]
      · rw [if_pos h, List.cons_append, splitAt_cons_self,
          splitAt_replicate_append (by decide), after]
        rfl
    · refine ⟨c :: l, ls, ?_, ?_⟩
      · rw [splitAt_cons_of_ne h, before, List.modifyHead_cons]
      · rw [if_neg h, splitAt_cons_of_ne h, after, List.modifyHead_cons]

/-- Indenting every line indents every line. -/
theorem splitAt_indented (n : Nat) (t : Text) :
    splitAt '\n' (List.replicate n ' ' ++ replace ['\n'] ('\n' :: List.replicate n ' ') t) =
      (splitAt '\n' t).map (List.replicate n ' ' ++ ·) := by
  obtain ⟨l, ls, before, after⟩ := exists_lines_replace_newline n t
  rw [splitAt_replicate_append (by decide), after, before]
  rfl

theorem flushLines_replace_newline (n : Nat) (t : Text) :
    flushLines (replace ['\n'] ('\n' :: List.replicate n ' ') t) = flushLines t := by
  obtain ⟨l, ls, before, after⟩ := exists_lines_replace_newline n t
  rw [flushLines, flushLines, before, after]
  simp

end Text

/-! ## Outputs -/

namespace Output

/-- The outputs have the same entries, up to the leading spaces of their lines. -/
def SameLines (w w' : Output) : Prop :=
  w.entries.map Text.flushLines = w'.entries.map Text.flushLines

theorem exists_margin_eq_replicate (w : Output) (depth : Nat) :
    ∃ n, w.margin depth = List.replicate n ' ' := by
  unfold margin
  split
  · exact ⟨depth, rfl⟩
  · exact ⟨0, rfl⟩

theorem flushLines_line (w : Output) (depth : Nat) (t : Text) :
    (w.line depth t).entries.map Text.flushLines =
      t.flushLines :: w.entries.map Text.flushLines := by
  obtain ⟨n, margin⟩ := w.exists_margin_eq_replicate depth
  rw [line, margin, List.map_cons, Text.flushLines_replicate_append]

theorem flushLines_block (w : Output) (depth : Nat) (t : Text) :
    (w.block depth t).entries.map Text.flushLines =
      t.flushLines :: w.entries.map Text.flushLines := by
  obtain ⟨n, margin⟩ := w.exists_margin_eq_replicate depth
  rw [block, margin, List.map_cons, Text.flushLines_replicate_append,
    Text.flushLines_replace_newline]

theorem flushLines_text {w : Output} (h : w.entries ≠ []) :
    w.text.flushLines = (w.entries.map Text.flushLines).reverse.flatten := by
  rw [text, Text.flushLines_join (by simpa using h), List.flatMap_def, List.map_reverse]

namespace SameLines

variable {w w' : Output}

theorem line (h : SameLines w w') (depth : Nat) {t t' : Text} (ht : t.flushLines = t'.flushLines) :
    SameLines (w.line depth t) (w'.line depth t') := by
  rw [SameLines, flushLines_line, flushLines_line, ht, h]

theorem block (h : SameLines w w') (depth : Nat) (t : Text) :
    SameLines (w.block depth t) (w'.block depth t) := by
  rw [SameLines, flushLines_block, flushLines_block, h]

theorem entries_eq_nil_iff (h : SameLines w w') : w.entries = [] ↔ w'.entries = [] := by
  rw [← List.map_eq_nil_iff, h, List.map_eq_nil_iff]

theorem flushLines_text (h : SameLines w w') : w.text.flushLines = w'.text.flushLines := by
  by_cases hempty : w.entries = []
  · -- without entries the text is empty, and an empty text is one line
    rw [text, text, hempty, h.entries_eq_nil_iff.mp hempty]
  · rw [Output.flushLines_text hempty,
      Output.flushLines_text (mt h.entries_eq_nil_iff.mpr hempty), h]

/-- What is left of a captured block: one entry that holds its text, if there is any. -/
theorem captured (h : SameLines w w') {out out' : Output} (hout : SameLines out out') :
    SameLines (if out.entries.isEmpty then w else w.line 0 out.text)
      (if out'.entries.isEmpty then w' else w'.line 0 out'.text) := by
  have hempty : out.entries.isEmpty = out'.entries.isEmpty := by
    rw [Bool.eq_iff_iff, List.isEmpty_iff, List.isEmpty_iff]
    exact hout.entries_eq_nil_iff
  rw [hempty]
  split
  · exact h
  · exact h.line 0 hout.flushLines_text

end SameLines
end Output

/-! ## Runs -/

/-- No operation of rendering depends on how the output before it is indented. -/
theorem Renderer.sink_sameLines (r : Renderer) (names : List Text) :
    Sink.Simulates names Output.SameLines r.sink r.sink where
  literal depth _ _ _ h := h.line depth rfl
  line env depth value w w' _ h := by
    cases hline : r.line env value with
    | error e =>
      rw [sink_line_of_error hline, sink_line_of_error hline]
      exact ⟨h, rfl⟩
    | ok t =>
      rw [sink_line_of_ok hline, sink_line_of_ok hline]
      exact ⟨h.line depth rfl, rfl⟩
  filtered depth _ _ _ _ _ h := h.block depth _
  fresh _ := rfl
  captured h hout := h.captured hout
  abandoned h _ := h

namespace Program

/-- Rendering with and without indentation fails with the same failure, or succeeds both times and
puts out the same lines but for their leading spaces. -/
theorem flushLeft_render (types : TypeRegistry) (r : Renderer) (p : Program) (context : Data) :
    (∃ failure, p.render types r true context = .error failure ∧
        p.render types r false context = .error failure) ∨
      ∃ pretty plain, p.render types r true context = .ok pretty ∧
        p.render types r false context = .ok plain ∧ pretty.flushLeft = plain.flushLeft := by
  have hempty : Output.SameLines { indent := true } { indent := false } := rfl
  have hended := p.runIn_respects (r.sink_sameLines _).respects types r.evaluator context _ _ hempty
  rw [render_eq, render_eq]
  rcases answer_of_alike hended Output.text Output.text with
    ⟨failure, hpretty, hplain⟩ | ⟨w, w', hlines, hpretty, hplain⟩
  · exact .inl ⟨failure, hpretty, hplain⟩
  · refine .inr ⟨w.text, w'.text, hpretty, hplain, ?_⟩
    rw [Text.flushLeft, Text.flushLeft, hlines.flushLines_text]

end Program
end Offside
