import Mathlib.Data.List.DropRight
import Offside.Proofs.FilterUses
import Offside.Proofs.LinesBelow

/-!
# The text of a filter block

A filter that stands alone has the deeper lines below it as its text. Two readers decide about these
lines, and neither asks the other: the first one keeps a line whole if it is deeper than the filter,
and drops blank lines; the second one takes lines as long as they are deeper than the filter, and
puts blank lines back where line numbers are left out. Between them nothing of the lines is lost
(`Program.ofTokens_filter_block`): the text is that of the lines, without the indentation of the
first one, which no line may fall short of.
-/

namespace Offside

namespace FilterBlock

/-- The indentation of a block is that of its first line that is not blank. -/
def base (lines : List Text) : Nat := ((lines.find? (!·.isBlank)).map indentation).getD 0

/-- The lines from the first to the last that is not blank. -/
def inner (lines : List Text) : List Text := (lines.dropWhile (·.isBlank)).rdropWhile (·.isBlank)

/-- A line without the indentation of its block. Of a blank line nothing is left. -/
def flush (base : Nat) (l : Text) : Text := if l.isBlank then [] else l.drop base

/-- The text of a block. -/
def text (lines : List Text) : Text :=
  Text.join ['\n'] ((inner lines).map (flush (base lines)))

/-! ## The text, line by line -/

/-- What lines add to the text of a block whose last line is `n` lines above them. -/
def below (base : Nat) : (n : Nat) → List Text → Text
  | _, [] => []
  | n, l :: ls =>
    if l.isBlank then below base (n + 1) ls
    else List.replicate n '\n' ++ l.drop base ++ below base 1 ls

theorem rdropWhile_cons {α : Type} (p : α → Bool) (a : α) (l : List α) :
    (a :: l).rdropWhile p =
      if l.rdropWhile p = [] then [a].rdropWhile p else a :: l.rdropWhile p := by
  simp only [List.rdropWhile, List.reverse_cons, List.dropWhile_append, List.reverse_eq_nil_iff,
    List.isEmpty_iff]
  split <;> simp

/-- The lines up to the last that is not blank, one below the other. -/
theorem below_eq (base n : Nat) (lines : List Text) :
    below base n lines = if lines.rdropWhile (·.isBlank) = [] then [] else
      List.replicate n '\n' ++
        Text.join ['\n'] ((lines.rdropWhile (·.isBlank)).map (flush base)) := by
  induction lines generalizing n with
  | nil => rfl
  | cons l ls ih =>
    rw [below, rdropWhile_cons, ih, ih]
    by_cases hls : ls.rdropWhile (·.isBlank) = []
    · -- only blank lines follow, so the text ends with this line or before it
      rw [if_pos hls, if_pos hls, if_pos hls]
      cases hl : l.isBlank with
      | true => simp [List.rdropWhile_singleton, hl]
      | false => simp [List.rdropWhile_singleton, hl, flush, Text.join]
    · have hmap : (ls.rdropWhile (·.isBlank)).map (flush base) ≠ [] := by simpa using hls
      rw [if_neg hls, if_neg hls, if_neg hls, if_neg (List.cons_ne_nil _ _), List.map_cons,
        Text.join_cons hmap, flush]
      cases l.isBlank with
      | true =>
        -- its own line break is one more of those that are due
        simp [List.replicate_succ']
      | false => simp

theorem base_cons_of_blank {l : Text} (h : l.isBlank = true) (ls : List Text) :
    base (l :: ls) = base ls := by
  simp [base, h]

theorem base_cons_of_not_blank {l : Text} (h : l.isBlank = false) (ls : List Text) :
    base (l :: ls) = indentation l := by
  simp [base, h]

theorem text_cons_of_blank {l : Text} (h : l.isBlank = true) (ls : List Text) :
    text (l :: ls) = text ls := by
  rw [text, text, base_cons_of_blank h, inner, inner, List.dropWhile_cons_of_pos h]

theorem text_cons_of_not_blank {l : Text} (h : l.isBlank = false) (ls : List Text) :
    text (l :: ls) = l.drop (indentation l) ++ below (indentation l) 1 ls := by
  have hne : (l :: ls).rdropWhile (·.isBlank) ≠ [] := by simp [h]
  have hbelow := below_eq (indentation l) 0 (l :: ls)
  rw [if_neg hne, below, h] at hbelow
  rw [text, base_cons_of_not_blank h, inner, List.dropWhile_cons_of_neg (by simp [h])]
  exact hbelow.symm

end FilterBlock

/-! ## The lines of a block as tokens -/

theorem dropBytes_of_spaces {t : Text} (h : ∀ c ∈ t, c = ' ') (n : Nat) :
    Text.dropBytes n t = t.drop n := by
  induction t generalizing n with
  | nil => cases n <;> rfl
  | cons c t ih =>
    obtain ⟨rfl, ht⟩ := List.forall_mem_cons.1 h
    cases n with
    | zero => rfl
    | succ n => exact ih ht n

/-- The indentation beyond that of the block stays, and so does what follows it. -/
theorem dropBytes_indentation {base : Nat} {l : Text} (h : base ≤ indentation l) :
    Text.dropBytes base (l.takeWhile (· == ' ')) ++ l.dropWhile (· == ' ') = l.drop base := by
  have hspaces : ∀ c ∈ l.takeWhile (· == ' '), c = ' ' := by
    intro c hc
    simpa using List.mem_takeWhile_imp hc
  rw [dropBytes_of_spaces hspaces, ← List.drop_append_of_le_length h,
    List.takeWhile_append_dropWhile]

theorem drop_indentation (l : Text) : l.drop (indentation l) = l.dropWhile (· == ' ') := by
  have h : List.drop (l.takeWhile (· == ' ')).length
      (l.takeWhile (· == ' ') ++ l.dropWhile (· == ' ')) = l.dropWhile (· == ' ') :=
    List.drop_left ..
  rwa [List.takeWhile_append_dropWhile] at h

/-- Where the line below some lines starts. The first of them has number `line` and starts at
`offset`. -/
def startBelow (file : Text) (line offset : Nat) (lines : List Text) : Location where
  file
  line := line + lines.length
  column := 0
  offset := offset + (lines.flatMap (· ++ ['\n'])).length

theorem startBelow_cons (file : Text) (line offset : Nat) (l : Text) (ls : List Text) :
    startBelow file line offset (l :: ls) =
      startBelow file (line + 1) (offset + l.length + 1) ls := by
  have hline : line + (l :: ls).length = line + 1 + ls.length := by
    rw [List.length_cons]
    omega
  have hoffset : offset + ((l :: ls).flatMap (· ++ ['\n'])).length =
      offset + l.length + 1 + (ls.flatMap (· ++ ['\n'])).length := by
    simp only [List.flatMap_cons, List.length_append, List.length_singleton]
    omega
  rw [startBelow, startBelow, hline, hoffset]

section Block

variable {file : Text} {d base : Nat} {l : Text}

theorem lexLines_of_blank (h : l.isBlank = true) (line offset : Nat) (ls : List Text) :
    lexLines file line offset (some d) (l :: ls) =
      lexLines file (line + 1) (offset + l.length + 1) (some d) ls := by
  rw [lexLines_cons, scanLine_of_blank h]
  rfl

/-- Whatever stands on a line of a block, its tokens are its indentation and one text. -/
theorem lexLines_of_raw (h : l.isBlank = false) (hd : d < indentation l) (line offset : Nat)
    (ls : List Text) :
    lexLines file line offset (some d) (l :: ls) =
      ⟨.indent, { file, line, column := 0, offset }, l.takeWhile (· == ' ')⟩ ::
      ⟨.text, { file, line, column := indentation l, offset := offset + indentation l },
        l.dropWhile (· == ' ')⟩ ::
      lexLines file (line + 1) (offset + l.length + 1) (some d) ls := by
  rw [lexLines_cons, scanLine_of_raw h (by simpa using hd)]
  simp [placePieces, indentation, Piece.contents]

namespace Layout

theorem readBlock_text {u : Token} (hu : u.kind = .text) (last : Nat) (ts : List Token) :
    readBlock d base last (u :: ts) =
      (readBlock d base last ts).map fun r => (u.contents ++ r.1, r.2) := by
  rw [readBlock, if_neg (by simp [hu])]
  cases readBlock d base last ts <;> rfl

/-- One more line of a block, `n` lines below the last one. -/
theorem readBlock_of_raw (h : l.isBlank = false) (hd : d < indentation l) (last n offset : Nat)
    (ls : List Text) :
    readBlock d base last (lexLines file (last + n) offset (some d) (l :: ls)) =
      if indentation l < base then
        .error ⟨.shallowFilterLine, { file, line := last + n, column := 0, offset }⟩
      else
        (readBlock d base (last + n)
          (lexLines file (last + n + 1) (offset + l.length + 1) (some d) ls)).map fun r =>
            (List.replicate n '\n' ++ l.drop base ++ r.1, r.2) := by
  have hdepth : Text.byteLength (l.takeWhile (· == ' ')) = indentation l :=
    byteLength_takeWhile_spaces l
  rw [lexLines_of_raw h hd, readBlock, if_pos rfl, Token.depth, hdepth, if_neg (by omega)]
  split
  · rfl
  · rename_i hbase
    rw [← dropBytes_indentation (Nat.le_of_not_lt hbase), readBlock_text rfl]
    cases readBlock d base (last + n)
        (lexLines file (last + n + 1) (offset + l.length + 1) (some d) ls) with
    | error e => rfl
    | ok r =>
      show Except.ok _ = Except.ok _
      simp

variable {lines : List Text}

/-- Lines that are indented far enough are read to the last of them. -/
theorem readBlock_lexLines (hdeep : ∀ l ∈ lines, l.isBlank = true ∨ d < indentation l)
    (hbase : ∀ l ∈ lines, l.isBlank = true ∨ base ≤ indentation l) (last n offset : Nat) :
    readBlock d base last (lexLines file (last + n) offset (some d) lines) =
      .ok (FilterBlock.below base n lines, []) := by
  induction lines generalizing last n offset with
  | nil => rfl
  | cons l ls ih =>
    obtain ⟨hd, hdeep⟩ := List.forall_mem_cons.1 hdeep
    obtain ⟨hb, hbase⟩ := List.forall_mem_cons.1 hbase
    rw [FilterBlock.below]
    cases hl : l.isBlank with
    | true =>
      rw [lexLines_of_blank hl]
      exact ih hdeep hbase last (n + 1) _
    | false =>
      simp only [hl, Bool.false_eq_true, false_or] at hd hb
      rw [readBlock_of_raw hl hd, if_neg (by omega), ih hdeep hbase]
      rfl

/-- The first line that is indented too little ends the reading. -/
theorem readBlock_lexLines_of_shallow {before after : List Text}
    (hdeep : ∀ l ∈ before, l.isBlank = true ∨ d < indentation l)
    (hbase : ∀ l ∈ before, l.isBlank = true ∨ base ≤ indentation l)
    (hl : l.isBlank = false) (hd : d < indentation l) (hlt : indentation l < base)
    (last n offset : Nat) :
    readBlock d base last (lexLines file (last + n) offset (some d) (before ++ l :: after)) =
      .error ⟨.shallowFilterLine, startBelow file (last + n) offset before⟩ := by
  induction before generalizing last n offset with
  | nil =>
    rw [List.nil_append, readBlock_of_raw hl hd, if_pos hlt]
    rfl
  | cons b before ih =>
    obtain ⟨hbd, hdeep⟩ := List.forall_mem_cons.1 hdeep
    obtain ⟨hbb, hbase⟩ := List.forall_mem_cons.1 hbase
    rw [List.cons_append, startBelow_cons]
    cases hblank : b.isBlank with
    | true =>
      rw [lexLines_of_blank hblank]
      exact ih hdeep hbase last (n + 1) _
    | false =>
      simp only [hblank, Bool.false_eq_true, false_or] at hbd hbb
      rw [readBlock_of_raw hblank hbd, if_neg (by omega), ih hdeep hbase]
      rfl

/-! ## The filter with its block -/

section Filter

variable {s : Layout} {mark : Token} {line offset : Nat}

/-- A filter at a first line that is not blank reads its block from there on. -/
theorem readFilter_of_raw {ls : List Text} (hl : l.isBlank = false) (hd : d < indentation l)
    (hr : s.rest = mark :: lexLines file line offset (some d) (l :: ls))
    (hm : mark.kind = .filterMark) (hs : s.depth = d) :
    s.readFilter true = (readBlock d (indentation l) line
      (lexLines file (line + 1) (offset + l.length + 1) (some d) ls)).map fun r =>
        (true, emit { s with rest := r.2 } (.filtered mark.start (filterName mark.contents)
          (l.drop (indentation l) ++ r.1) d)) := by
  have hdepth : Text.byteLength (l.takeWhile (· == ' ')) = indentation l :=
    byteLength_takeWhile_spaces l
  rw [lexLines_of_raw hl hd] at hr
  rw [readFilter_block hr hm rfl (by rw [hs, Token.depth, hdepth]; exact hd), readBlock_text rfl,
    Token.depth, hdepth, hs, drop_indentation]
  cases readBlock d (indentation l) line
    (lexLines file (line + 1) (offset + l.length + 1) (some d) ls) <;> rfl

/-- A filter takes the text of the lines below it, if all of them are indented far enough. -/
theorem readFilter_lexLines (hdeep : ∀ l ∈ lines, l.isBlank = true ∨ d < indentation l)
    (hbase : ∀ l ∈ lines, l.isBlank = true ∨ FilterBlock.base lines ≤ indentation l)
    (hr : s.rest = mark :: lexLines file line offset (some d) lines)
    (hm : mark.kind = .filterMark) (hs : s.depth = d) :
    s.readFilter true = .ok (true, emit { s with rest := [] }
      (.filtered mark.start (filterName mark.contents) (FilterBlock.text lines) d)) := by
  induction lines generalizing line offset with
  | nil =>
    have hr : s.rest = mark :: [] := hr
    rw [readFilter_line hr hm rfl, hs]
    rfl
  | cons l ls ih =>
    obtain ⟨hd, hdeep⟩ := List.forall_mem_cons.1 hdeep
    obtain ⟨-, hbase⟩ := List.forall_mem_cons.1 hbase
    cases hl : l.isBlank with
    | true =>
      -- neither reader sees a blank line before the block
      rw [lexLines_of_blank hl] at hr
      rw [FilterBlock.base_cons_of_blank hl] at hbase
      rw [FilterBlock.text_cons_of_blank hl]
      exact ih hdeep hbase hr
    | false =>
      simp only [hl, Bool.false_eq_true, false_or] at hd
      rw [FilterBlock.base_cons_of_not_blank hl] at hbase
      rw [readFilter_of_raw hl hd hr hm hs, readBlock_lexLines hdeep hbase,
        FilterBlock.text_cons_of_not_blank hl]
      rfl

/-- A filter fails at the first line below it that is indented too little. -/
theorem readFilter_lexLines_of_shallow {before after : List Text}
    (hdeep : ∀ l ∈ before, l.isBlank = true ∨ d < indentation l)
    (hbase : ∀ b ∈ before, b.isBlank = true ∨
      FilterBlock.base (before ++ l :: after) ≤ indentation b)
    (hl : l.isBlank = false) (hd : d < indentation l)
    (hlt : indentation l < FilterBlock.base (before ++ l :: after))
    (hr : s.rest = mark :: lexLines file line offset (some d) (before ++ l :: after))
    (hm : mark.kind = .filterMark) (hs : s.depth = d) :
    s.readFilter true = .error ⟨.shallowFilterLine, startBelow file line offset before⟩ := by
  induction before generalizing line offset with
  | nil =>
    -- the first line that is not blank sets the indentation of the block
    rw [List.nil_append, FilterBlock.base_cons_of_not_blank hl] at hlt
    exact absurd hlt (Nat.lt_irrefl _)
  | cons b before ih =>
    obtain ⟨hbd, hdeep⟩ := List.forall_mem_cons.1 hdeep
    obtain ⟨-, hbase⟩ := List.forall_mem_cons.1 hbase
    rw [List.cons_append] at hr hbase hlt
    rw [startBelow_cons]
    cases hblank : b.isBlank with
    | true =>
      rw [lexLines_of_blank hblank] at hr
      rw [FilterBlock.base_cons_of_blank hblank] at hbase hlt
      exact ih hdeep hbase hlt hr
    | false =>
      simp only [hblank, Bool.false_eq_true, false_or] at hbd
      rw [FilterBlock.base_cons_of_not_blank hblank] at hbase hlt
      rw [readFilter_of_raw hblank hbd hr hm hs,
        readBlock_lexLines_of_shallow hdeep hbase hl hd hlt]
      rfl

end Filter
end Layout
end Block

/-! ## A source that is one filter -/

/-- The line of a filter that stands alone. -/
def filterLine (depth : Nat) (name : Text) : Text := List.replicate depth ' ' ++ ':' :: name

section Source

variable {file name : Text} {depth : Nat} {lines : List Text}

theorem scanLine_filterLine (hne : name ≠ []) (hall : ∀ c ∈ name, isFilterNameChar c = true) :
    scanLine true none (filterLine depth name) =
      ([.token .indent (List.replicate depth ' '), .token .filterMark (':' :: name)],
        some depth) := by
  show scanLine true none (indented depth (':' :: name)) = _
  rw [scanLine_indented (by decide) rfl, scanBody, scanFilter_of_name hne hall]
  rfl

/-- The tokens of a filter and of the lines below it. -/
theorem lexLines_filterLine (hne : name ≠ []) (hall : ∀ c ∈ name, isFilterNameChar c = true) :
    lexLines file 0 0 none (filterLine depth name :: lines) =
      ⟨.indent, { file, line := 0, column := 0, offset := 0 }, List.replicate depth ' '⟩ ::
      ⟨.filterMark, { file, line := 0, column := depth, offset := depth }, ':' :: name⟩ ::
      lexLines file 1 ((filterLine depth name).length + 1) (some depth) lines := by
  rw [lexLines_cons, show (0 == 0) = true from rfl, scanLine_filterLine hne hall]
  simp [placePieces, Piece.contents]

theorem splitLines_filterLine (hall : ∀ c ∈ name, isFilterNameChar c = true)
    (hlines : ∀ l ∈ lines, '\n' ∉ l ∧ '\r' ∉ l) :
    splitLines (normalise (Text.join ['\n'] (filterLine depth name :: lines))) =
      filterLine depth name :: lines := by
  have hbreak : ∀ c, isFilterNameChar c = false → c ≠ ':' → c ∉ ':' :: name := by
    intro c hc hne hmem
    rcases List.mem_cons.1 hmem with he | hmem
    · exact hne he
    · rw [hall c hmem] at hc
      cases hc
  exact splitLines_indented (by decide)
    ⟨hbreak _ (by decide) (by decide), hbreak _ (by decide) (by decide)⟩ hlines depth

end Source

section Alone

variable {contextType : Text} {maxDepth : Int} {indent mark : Token} {ts : List Token} {depth : Nat}

theorem Layout.readIndent_of_filter (hi : indent.kind = .indent) (hd : indent.depth = depth) :
    Layout.readIndent { rest := indent :: mark :: ts } =
      { rest := mark :: ts, pending := [⟨depth, false⟩] } := by
  rw [Layout.readIndent_of_indent rfl hi, hd]
  rfl

/-- A source that is one filter is one instruction, if all of it is read. -/
theorem Program.ofTokens_of_filter {pos : Location} {name text : Text}
    (hi : indent.kind = .indent) (hd : indent.depth = depth)
    (h : Layout.readFilter true { rest := mark :: ts, pending := [⟨depth, false⟩] } =
      .ok (true, Layout.emit { rest := [], pending := [⟨depth, false⟩] }
        (.filtered pos name text depth))) :
    Program.ofTokens contextType maxDepth (indent :: mark :: ts) =
      .ok { contextType, code := #[.filtered pos name text depth] } := by
  rw [ofTokens_eq_readAll (.inr ⟨indent, _, rfl, hi⟩), Layout.readAll_of_line hi (Nat.zero_le _)
    (by rw [hd, Layout.readBody_of_filter_ok h (.inl rfl)]), Layout.readAll,
    Layout.readLines_nil rfl]
  rfl

/-- A source that is one filter fails where the filter fails. -/
theorem Program.ofTokens_of_filter_error {e : Located Problem} (hi : indent.kind = .indent)
    (hd : indent.depth = depth)
    (h : Layout.readFilter true { rest := mark :: ts, pending := [⟨depth, false⟩] } = .error e) :
    Program.ofTokens contextType maxDepth (indent :: mark :: ts) = .error e := by
  rw [ofTokens_eq_error, layOut_eq_error]
  refine .inr ⟨_, Layout.readDoctype_of_lineEnd (.inr ⟨indent, _, rfl, hi⟩), ?_⟩
  rw [Layout.readLines_cons rfl, Layout.readLine_eq_readBody, Layout.readIndent_of_filter hi hd,
    Layout.readBody_of_filter_error h]
  rfl

end Alone

namespace Program

/-- A filter that stands alone, with nothing below it but blank lines and deeper ones, is one
instruction, and its text is that of the lines, whatever they hold; unless one of them is indented
less than the first one that is not blank, which then is the place of a problem. -/
theorem ofTokens_filter_block (file contextType : Text) (maxDepth : Int) {name : Text} {depth : Nat}
    {lines : List Text} (hne : name ≠ []) (hname : ∀ c ∈ name, isFilterNameChar c = true)
    (hlines : ∀ l ∈ lines, '\n' ∉ l ∧ '\r' ∉ l)
    (hdeep : ∀ l ∈ lines, l.isBlank = true ∨ depth < indentation l) :
    ((∀ l ∈ lines, l.isBlank = true ∨ FilterBlock.base lines ≤ indentation l) →
        Program.ofTokens contextType maxDepth
            (lex file (Text.join ['\n'] (filterLine depth name :: lines))) =
          .ok {
            contextType
            code := #[.filtered { file, line := 0, column := depth, offset := depth } name
              (FilterBlock.text lines) depth] }) ∧
      ∀ before l after, lines = before ++ l :: after →
        (∀ b ∈ before, b.isBlank = true ∨ FilterBlock.base lines ≤ indentation b) →
        l.isBlank = false → indentation l < FilterBlock.base lines →
        Program.ofTokens contextType maxDepth
            (lex file (Text.join ['\n'] (filterLine depth name :: lines))) =
          .error ⟨.shallowFilterLine, {
            file
            line := before.length + 1
            column := 0
            offset := ((filterLine depth name :: before).flatMap (· ++ ['\n'])).length }⟩ := by
  have hindent := byteLength_replicate_space depth
  have hfilter : Layout.filterName (':' :: name) = name :=
    (List.cons.inj (IsFilterMark.cons_filterName ⟨name, rfl, hname⟩)).2
  rw [lex, splitLines_filterLine hname hlines, lexLines_filterLine hne hname]
  constructor
  · intro hbase
    refine ofTokens_of_filter rfl hindent ?_
    rw [Layout.readFilter_lexLines hdeep hbase rfl rfl rfl, hfilter]
  · rintro before l after rfl hbase hl hlt
    obtain ⟨hdeep, hd⟩ := List.forall_mem_append.1 hdeep
    have hd : depth < indentation l := by
      simpa [hl] using hd l (List.mem_cons_self ..)
    refine ofTokens_of_filter_error rfl hindent ?_
    rw [Layout.readFilter_lexLines_of_shallow hdeep hbase hl hd hlt rfl rfl rfl, startBelow]
    have hline : 1 + before.length = before.length + 1 := Nat.add_comm ..
    have hoffset : (filterLine depth name).length + 1 + (before.flatMap (· ++ ['\n'])).length =
        ((filterLine depth name :: before).flatMap (· ++ ['\n'])).length := by
      simp only [List.flatMap_cons, List.length_append, List.length_singleton]
    rw [hline, hoffset]

/-- A block with markup, a filter and blank lines in it, and a block with a line that is indented
too little. -/
theorem ofTokens_filter_block_of_markup :
    Program.ofTokens [] 0 (lex [] " :js\n\n    %a= {b}\n \n      :c x\n  ".toList) =
        .ok ⟨[], #[.filtered { column := 1, offset := 1 } "js".toList
          "%a= {b}\n\n  :c x".toList 1]⟩ ∧
      Program.ofTokens [] 0 (lex [] " :js\n    a\n\n  b\n   c".toList) =
        .error ⟨.shallowFilterLine, { line := 3, offset := 12 }⟩ := by
  have hname : ∀ c ∈ "js".toList, isFilterNameChar c = true :=
    List.all_eq_true.1 (by decide +kernel)
  constructor
  · have hlines : ∀ l ∈ ["".toList, "    %a= {b}".toList, " ".toList, "      :c x".toList,
        "  ".toList], '\n' ∉ l ∧ '\r' ∉ l := by decide +kernel
    have hdeep : ∀ l ∈ ["".toList, "    %a= {b}".toList, " ".toList, "      :c x".toList,
        "  ".toList], Text.isBlank l = true ∨ 1 < indentation l := by decide +kernel
    have h := (ofTokens_filter_block [] [] 0 (by decide) hname hlines hdeep).1 (by decide +kernel)
    exact h
  · have hlines : ∀ l ∈ ["    a".toList, "".toList, "  b".toList, "   c".toList],
        '\n' ∉ l ∧ '\r' ∉ l := by decide +kernel
    have hdeep : ∀ l ∈ ["    a".toList, "".toList, "  b".toList, "   c".toList],
        Text.isBlank l = true ∨ 1 < indentation l := by decide +kernel
    have h := (ofTokens_filter_block [] [] 0 (by decide) hname hlines hdeep).2
      ["    a".toList, "".toList] "  b".toList ["   c".toList] rfl (by decide +kernel)
      (by decide +kernel) (by decide +kernel)
    exact h

end Program
end Offside
