import Offside.Proofs.RawBlocks
import Offside.Proofs.ScopeInvariant

/-!
# Reading the tokens of a source

Every token list that comes from a source has the form that reading it needs, so that no reader ever
finds another token than it looks for: what is left to go wrong is an unknown doctype, a line of a
filter block that is indented too little, too many open scopes, variables without a block, and a
doctype line with more than two words.

What reading the doctype line leads to is said once (`readDoctype_lex`); whatever is then left are
lines of markup, which are read one after the other (`Layout.readLines_of_sheet`).
-/

namespace Offside

/-! ## Delimiters and line numbers -/

theorem scanDoctype_kinds (t : Text) :
    ∀ k ∈ (kindsOf (scanDoctype t)).tail, k = .doctypeWord := by
  intro k hk
  obtain ⟨p, hp, hkp⟩ := List.mem_filterMap.1 hk
  obtain ⟨⟨blank, run⟩, -, rfl⟩ := List.mem_map.1 hp
  cases blank with
  | true => cases hkp
  | false =>
    cases hkp
    rfl

theorem delimited_scanDoctype (t : Text) : ∀ p ∈ scanDoctype t, p.Delimited := by
  intro p hp
  rcases List.mem_cons.1 hp with rfl | hp
  · trivial
  · obtain ⟨⟨blank, run⟩, -, rfl⟩ := List.mem_map.1 hp
    cases blank <;> trivial

/-- Of every line: nothing among its pieces is left open, and only its first token can be an
indentation. -/
theorem scanLine_pieces (first : Bool) (block : Option Nat) (t : Text) :
    (∀ p ∈ (scanLine first block t).1, p.Delimited) ∧
      .indent ∉ (kindsOf (scanLine first block t).1).tail := by
  cases hblank : t.isBlank with
  | true =>
    rw [scanLine_of_blank hblank]
    exact ⟨by simp [Piece.Delimited], by simp⟩
  | false =>
    cases hany : block.any (· < indentation t) with
    | true =>
      rw [scanLine_of_raw hblank hany]
      exact ⟨by simp [Piece.Delimited], by simp⟩
    | false =>
      obtain ⟨hk, hd⟩ := scanBody_cut (dropWhile_ne_nil_of_not_blank hblank)
      have hmarkup : (∀ p ∈ (scanLine false block t).1, p.Delimited) ∧
          .indent ∉ (kindsOf (scanLine false block t).1).tail := by
        rw [scanLine_of_markup hblank hany]
        exact ⟨List.forall_mem_cons.2 ⟨trivial, hd⟩, hk.indent_not_mem⟩
      cases hcut : Text.cut? ['!', '!', '!'] t with
      | none => rwa [scanLine_of_not_doctype fun _ => hcut]
      | some rest =>
        cases first with
        | false => exact hmarkup
        | true =>
          rw [scanLine_of_doctype hblank hany hcut]
          refine ⟨delimited_scanDoctype rest, ?_⟩
          intro hmem
          cases scanDoctype_kinds rest _ hmem

/-- What a token among the pieces of a line is cut from: the indentation, the text of a raw block, a
doctype line, or one of the parts of a line of markup. -/
inductive CutFrom (k : TokenKind) (raw : Text) : Prop
  | indent : k = .indent → CutFrom k raw
  | rawText : k = .text → CutFrom k raw
  | doctype (t : Text) : .token k raw ∈ scanDoctype t → CutFrom k raw
  | filter {t : Text} {ps : List Piece} {content : Bool} :
      scanFilter t = some (ps, content) → .token k raw ∈ ps → CutFrom k raw
  | header {t rest : Text} {ps : List Piece} :
      scanHeader t = some (ps, rest) → .token k raw ∈ ps → CutFrom k raw
  | attributes (t : Text) : .token k raw ∈ (scanAttributes t).1 → CutFrom k raw
  | output (t : Text) : .token k raw ∈ scanOutput t → CutFrom k raw

theorem cutFrom_of_mem_scanBody {k : TokenKind} {raw t : Text}
    (h : .token k raw ∈ (scanBody t).1) : CutFrom k raw := by
  unfold scanBody at h
  split at h
  · rename_i hf
    exact .filter hf h
  · split at h
    · exact .output t h
    · rename_i header rest hh
      have htag : .token k raw ∈ header ++ (scanAttributes rest).1 → CutFrom k raw := by
        intro h
        rcases List.mem_append.1 h with h | h
        · exact .header hh h
        · exact .attributes rest h
      dsimp only at h
      split at h
      · rename_i ps hp
        rcases List.mem_append.1 h with h | h
        · exact htag h
        · unfold scanTrailingFilter at hp
          split at hp
          · cases hp
          · obtain ⟨⟨qs, content⟩, hq, he⟩ := Option.map_eq_some_iff.1 hp
            cases he
            exact .filter hq (List.mem_of_ne_of_mem (by simp) h)
      · rcases List.mem_append.1 h with h | h
        · exact htag h
        · exact .output _ (List.mem_of_ne_of_mem (by simp) h)

theorem cutFrom_of_mem_scanLine {k : TokenKind} {raw t : Text} {first : Bool} {block : Option Nat}
    (h : .token k raw ∈ (scanLine first block t).1) : CutFrom k raw := by
  have hmarkup : .token k raw ∈ (scanMarkup t).1 → CutFrom k raw := by
    intro h
    rcases List.mem_cons.1 h with he | h
    · cases he
      exact .indent rfl
    · exact cutFrom_of_mem_scanBody h
  unfold scanLine at h
  split at h
  · simp at h
  · split at h
    · rcases List.mem_cons.1 h with he | h
      · cases he
        exact .indent rfl
      · cases List.mem_singleton.1 h
        exact .rawText rfl
    · split at h
      · split at h
        · exact .doctype _ h
        · exact hmarkup h
      · exact hmarkup h

theorem kindsOf_scanDoctype_subset (t : Text) :
    kindsOf (scanDoctype t) ⊆ [.doctypeMark, .doctypeWord] := by
  refine List.cons_subset.2 ⟨by simp, ?_⟩
  intro k hk
  simp [scanDoctype_kinds t k hk]

theorem kindsOf_scanOutput_subset (t : Text) :
    kindsOf (scanOutput t) ⊆
      [.text, .commentMark, .comment, .outputMark, .silentMark, .code, .arrow, .vars] := by
  by_cases ht : t = []
  · rw [ht]
    exact List.nil_subset _
  · exact (scanOutput_cut ht).1.subset

theorem kindsOf_scanFilter_subset {t : Text} {ps : List Piece} {content : Bool}
    (h : scanFilter t = some (ps, content)) : kindsOf ps ⊆ [.filterMark, .text] := by
  rw [(scanFilter_cut h).1]
  cases content <;> simp

/-- Pieces of other kinds only have no token of a kind that is looked for among them. -/
theorem not_mem_of_kinds {k : TokenKind} {raw : Text} {ps : List Piece} {wanted : List TokenKind}
    (hk : k ∈ wanted) (known : List TokenKind) (hks : kindsOf ps ⊆ known)
    (hnone : ∀ k ∈ wanted, k ∉ known) : .token k raw ∉ ps := by
  intro hmem
  exact hnone k hk (hks (List.mem_filterMap.2 ⟨_, hmem, rfl⟩))

/-- The delimiters of a token's text. -/
def Token.Delimited (t : Token) : Prop :=
  (t.kind = .braced → ∃ inner, t.contents = '{' :: (inner ++ ['}'])) ∧
    (t.kind = .quoted → ∃ inner, t.contents = '"' :: (inner ++ ['"']))

/-- Every token of a source is a piece of one of its lines. -/
theorem exists_piece_of_mem_lexLines {file : Text} {line offset : Nat} {block : Option Nat}
    {ts : List Text} {t : Token} (h : t ∈ lexLines file line offset block ts) :
    ∃ first block l raw, .token t.kind raw ∈ (scanLine first block l).1 ∧
      t.contents = Piece.contents t.kind raw := by
  induction ts generalizing line offset block with
  | nil => cases h
  | cons l ts ih =>
    rw [lexLines] at h
    rcases List.mem_append.1 h with h | h
    · exact ⟨line == 0, block, l, (mem_placePieces h).2⟩
    · exact ih h

theorem delimited_of_mem_lexLines {file : Text} {line offset : Nat} {block : Option Nat}
    {ts : List Text} {t : Token} (h : t ∈ lexLines file line offset block ts) : t.Delimited := by
  obtain ⟨first, block, l, raw, hmem, hcontents⟩ := exists_piece_of_mem_lexLines h
  have hd := (scanLine_pieces first block l).1 _ hmem
  constructor
  · intro hk
    rw [hk] at hd hcontents
    rw [hcontents]
    exact hd
  · intro hk
    rw [hk] at hd hcontents
    rw [hcontents]
    exact hd

theorem le_line_of_mem_lexLines {file : Text} {line offset : Nat} {block : Option Nat}
    {ts : List Text} {t : Token} (h : t ∈ lexLines file line offset block ts) :
    line ≤ t.start.line := by
  induction ts generalizing line offset block with
  | nil => cases h
  | cons l ts ih =>
    rw [lexLines] at h
    rcases List.mem_append.1 h with h | h
    · rw [(mem_placePieces h).1]
    · exact Nat.le_of_succ_le (ih h)

/-- An indentation is the first token of its line, and the lines come in order. -/
theorem lt_line_of_indent (file : Text) (line offset : Nat) (block : Option Nat)
    (ts : List Text) :
    (lexLines file line offset block ts).Pairwise
      fun t u => u.kind = .indent → t.start.line < u.start.line := by
  induction ts generalizing line offset block with
  | nil => exact .nil
  | cons l ts ih =>
    rw [lexLines, List.pairwise_append]
    refine ⟨?_, ih .., ?_⟩
    · have htail := (scanLine_pieces (line == 0) block l).2
      rw [← map_kind_placePieces file line offset 0] at htail
      cases hps : placePieces file line offset 0 (scanLine (line == 0) block l).1 with
      | nil => exact .nil
      | cons t us =>
        rw [hps, List.map_cons, List.tail_cons] at htail
        have hus : ∀ u ∈ us, u.kind ≠ .indent :=
          fun u hu hk => htail (List.mem_map.2 ⟨u, hu, hk⟩)
        refine List.pairwise_cons.2 ⟨fun u hu hk => absurd hk (hus u hu), ?_⟩
        exact List.Pairwise.imp_of_mem (fun _ hu _ hk => absurd hk (hus _ hu))
          (List.pairwise_of_forall fun _ _ => trivial)
    · intro t ht u hu _
      rw [(mem_placePieces ht).1]
      exact le_line_of_mem_lexLines hu

/-- Each line has at most one indentation, and the lines come in order. -/
theorem pairwise_line_lexLines (file : Text) (line offset : Nat) (block : Option Nat)
    (ts : List Text) :
    ((lexLines file line offset block ts).filter (·.kind == .indent)).Pairwise
      fun t u => t.start.line < u.start.line := by
  refine List.Pairwise.imp_of_mem ?_ ((lt_line_of_indent file line offset block ts).filter _)
  intro t u _ hu h
  exact h (eq_of_beq (List.mem_filter.1 hu).2)

/-! ## Words -/

/-- The words of a text, with spaces and tabs between them. -/
def Text.words (t : Text) : List Text := (t.splitOnP isGap).filter (· ≠ [])

/-- The runs of a text that are not blank. -/
def Text.inked (rs : List (Bool × Text)) : List Text := (rs.filter (!·.1)).map (·.2)

/-- Cutting a text into runs gives the same words as splitting it at its blanks: the first part of
the split is the first run, or empty if the text starts with a blank. -/
theorem runs_splitOnP (p : Char → Bool) (t : Text) :
    ∃ w ws, t.splitOnP p = w :: ws ∧
      (w = [] ∧ (∀ r ∈ (Text.runs p t).head?, r.1 = true) ∧
          Text.inked (Text.runs p t) = ws.filter (· ≠ []) ∨
        w ≠ [] ∧ ∃ rs, Text.runs p t = (false, w) :: rs ∧ Text.inked rs = ws.filter (· ≠ [])) := by
  induction t with
  | nil => exact ⟨[], [], by simp, .inl ⟨rfl, by simp [Text.runs], rfl⟩⟩
  | cons c t ih =>
    obtain ⟨w, ws, hsplit, ih⟩ := ih
    rw [List.splitOnP_cons_eq_if_modifyHead, hsplit]
    cases hc : p c with
    | true =>
      -- a blank goes into the run before the words, or makes one
      have hblank : (∀ r ∈ (Text.runs p (c :: t)).head?, r.1 = true) ∧
          Text.inked (Text.runs p (c :: t)) = Text.inked (Text.runs p t) := by
        rw [Text.runs, hc]
        cases Text.runs p t with
        | nil => simp [Text.inked]
        | cons r rs =>
          obtain ⟨b, r⟩ := r
          cases b <;> simp [Text.inked]
      refine ⟨[], w :: ws, rfl, .inl ⟨rfl, hblank.1, ?_⟩⟩
      rw [hblank.2]
      rcases ih with ⟨rfl, -, hws⟩ | ⟨hw, rs, hruns, hws⟩
      · simpa using hws
      · rw [hruns, List.filter_cons_of_pos (by simpa using hw), ← hws]
        rfl
    | false =>
      refine ⟨c :: w, ws, rfl, .inr ⟨by simp, ?_⟩⟩
      rcases ih with ⟨rfl, hhead, hws⟩ | ⟨hw, rs, hruns, hws⟩
      · refine ⟨Text.runs p t, ?_, hws⟩
        rw [Text.runs, hc]
        cases hruns : Text.runs p t with
        | nil => rfl
        | cons r rs =>
          obtain ⟨b, r⟩ := r
          have hb : b = true := hhead (b, r) (by rw [hruns]; rfl)
          rw [hb]
          rfl
      · refine ⟨rs, ?_, hws⟩
        rw [Text.runs, hc, hruns]
        rfl

theorem inked_runs (t : Text) : Text.inked (Text.runs isGap t) = t.words := by
  obtain ⟨w, ws, hsplit, ⟨rfl, -, hws⟩ | ⟨hw, rs, hruns, hws⟩⟩ := runs_splitOnP isGap t
  · rw [Text.words, hsplit, hws, List.filter_cons_of_neg (by simp)]
  · rw [Text.words, hsplit, hruns, List.filter_cons_of_pos (by simpa using hw), ← hws]
    rfl

/-! ## Lines of markup -/

theorem MarkupLine.endsBefore_of_isChain {l : MarkupLine} {ls : List MarkupLine}
    (h : (l :: ls).IsChain Follows) : l.EndsBefore (ls.flatMap (·.tokens)) := by
  cases ls with
  | nil => exact ⟨.inl rfl, fun _ => .inl rfl⟩
  | cons next ls =>
    obtain ⟨⟨-, hdepth⟩, -⟩ := List.isChain_cons_cons.1 h
    refine ⟨.inr ⟨next.indent, _, rfl, next.kind_indent⟩, ?_⟩
    intro halone
    refine .inr ⟨next.indent, _, rfl, next.kind_indent, ?_⟩
    rw [next.depth_indent]
    exact hdepth halone

namespace Layout

open Reading (Gives)

/-- Lines of markup are read one after the other. What holds at the start and is kept by every line
that is read holds at the end. -/
theorem readLines_of_sheet {limit : Int} {stop : Location} {P : Layout → List MarkupLine → Prop}
    {ls : List MarkupLine} {s : Layout}
    (hstep : ∀ l ls s s', (l :: ls).IsChain MarkupLine.Follows →
      s.rest = l.tokens ++ ls.flatMap (·.tokens) → P s (l :: ls) →
      s.readLine limit stop = .ok s' → P s' ls)
    (hchain : ls.IsChain MarkupLine.Follows) (hr : s.rest = ls.flatMap (·.tokens)) (hs : P s ls) :
    Gives (fun s' => P s' []) (ls.flatMap (·.tokens)) (s.readLines limit stop) := by
  induction ls generalizing s with
  | nil =>
    rw [readLines_nil hr]
    exact hs
  | cons l ls ih =>
    rw [List.flatMap_cons] at hr ⊢
    have hline : Gives (fun s' => s'.rest = ls.flatMap (·.tokens)) l.tokens
        (s.readLine limit stop) :=
      readLine_of_markup l (MarkupLine.endsBefore_of_isChain hchain) hr
    rw [readLines_cons hr]
    cases hread : s.readLine limit stop with
    | error e =>
      rw [hread] at hline
      obtain ⟨hcause, t, ht, hpos⟩ := hline
      exact ⟨hcause, t, List.mem_append_left _ ht, hpos⟩
    | ok s' =>
      rw [hread] at hline
      have hrest : s'.rest = ls.flatMap (·.tokens) := hline
      have hlt : s'.rest.length < s.rest.length := by
        rw [hr, hrest, List.length_append, MarkupLine.tokens, List.length_cons]
        omega
      show Gives _ _ (if s'.rest.length < s.rest.length then _ else _)
      rw [if_pos hlt]
      exact (ih hchain.tail hrest (hstep l ls s s' hchain hr hs hread)).mono (fun _ h => h)
        (List.subset_append_right ..)

end Layout

/-! ## The doctype line -/

/-- The words of a doctype line become tokens, and its blanks do not. -/
theorem placePieces_of_runs (file : Text) (line offset column : Nat) (rs : List (Bool × Text)) :
    (∀ w ∈ placePieces file line offset column (rs.map fun (blank, run) =>
        if blank then .skip run else .token .doctypeWord run), w.kind = .doctypeWord) ∧
      (placePieces file line offset column (rs.map fun (blank, run) =>
        if blank then .skip run else .token .doctypeWord run)).map (·.contents) =
          Text.inked rs := by
  induction rs generalizing column with
  | nil => exact ⟨by simp [placePieces], rfl⟩
  | cons r rs ih =>
    obtain ⟨blank, run⟩ := r
    cases blank with
    | true => exact ih _
    | false =>
      obtain ⟨hk, hc⟩ := ih (column + run.length)
      refine ⟨List.forall_mem_cons.2 ⟨rfl, hk⟩, ?_⟩
      show run :: List.map _ _ = _
      rw [hc]
      rfl

/-- The tokens of a source that starts with a doctype line: its mark, its words, and the tokens of
the lines below it. -/
theorem lex_doctype_line (file : Text) {source t rest : Text} {ts : List Text}
    (hlines : splitLines (normalise source) = t :: ts)
    (hcut : Text.cut? ['!', '!', '!'] t = some rest) :
    ∃ (mark : Token) (words : List Token),
      lex file source = mark :: (words ++ lexLines file 1 (0 + t.length + 1) none ts) ∧
      mark.kind = .doctypeMark ∧ mark.start.line = 0 ∧ (∀ w ∈ words, w.kind = .doctypeWord) ∧
      words.map (·.contents) = rest.words := by
  have hblank : t.isBlank = false := by
    rw [cut?_eq_some_iff.1 hcut]
    rfl
  obtain ⟨hk, hc⟩ :=
    placePieces_of_runs file 0 0 (0 + ['!', '!', '!'].length) (Text.runs isGap rest)
  refine ⟨⟨.doctypeMark, { file, line := 0, column := 0, offset := 0 + 0 }, ['!', '!', '!']⟩,
    _, ?_, rfl, rfl, hk, hc.trans (inked_runs rest)⟩
  rw [lex, hlines, lexLines, show (0 == 0) = true from rfl, scanLine_of_doctype hblank rfl hcut]
  dsimp only
  rw [scanDoctype, placePieces]
  rfl

/-- The tokens below a doctype line are those of lines of markup. -/
theorem lex_of_doctype (file : Text) {source t rest : Text} {ts : List Text}
    (hlines : splitLines (normalise source) = t :: ts)
    (hcut : Text.cut? ['!', '!', '!'] t = some rest) :
    ∃ (mark : Token) (words : List Token) (ls : List MarkupLine),
      lex file source = mark :: (words ++ ls.flatMap (·.tokens)) ∧
      mark.kind = .doctypeMark ∧ mark.start.line = 0 ∧ (∀ w ∈ words, w.kind = .doctypeWord) ∧
      words.map (·.contents) = rest.words ∧ ls.IsChain MarkupLine.Follows ∧
      ls.map (fun l => (l.number, l.depth)) = markupRows 1 none ts := by
  obtain ⟨mark, words, hlex, hm, hmark, hws, hcontents⟩ := lex_doctype_line file hlines hcut
  obtain ⟨raws, ls, hsheet, hraws, hchain, hrows⟩ := lexLines_sheet file (0 + t.length + 1) none
    (show 0 + 1 = 0 → ∀ u ∈ ts.head?, Text.cut? ['!', '!', '!'] u = none by simp)
  have hnil : raws = [] := hraws
  refine ⟨mark, words, ls, ?_, hm, hmark, hws, hcontents, hchain, hrows⟩
  rw [hlex, hsheet, hnil]
  rfl

theorem lex_of_not_doctype (file : Text) {source : Text}
    (hfirst : ∀ t ∈ (splitLines (normalise source)).head?, Text.cut? ['!', '!', '!'] t = none) :
    ∃ ls : List MarkupLine, lex file source = ls.flatMap (·.tokens) ∧
      ls.IsChain MarkupLine.Follows ∧ ls.map (fun l => (l.number, l.depth)) =
        markupRows 0 none (splitLines (normalise source)) := by
  obtain ⟨raws, ls, hlex, hraws, hchain, hrows⟩ := lexLines_sheet file 0 none fun _ => hfirst
  have hnil : raws = [] := hraws
  refine ⟨ls, ?_, hchain, hrows⟩
  rw [lex, hlex, hnil]
  rfl

namespace Layout

/-- What is read of a doctype line: its mark and at most two words. -/
theorem readDoctype_of_words {mark : Token} {words more : List Token}
    (hm : mark.kind = .doctypeMark) (hws : ∀ w ∈ words, w.kind = .doctypeWord)
    (hmore : ∀ t ts, more = t :: ts → t.kind ≠ .doctypeWord) :
    readDoctype { rest := mark :: (words ++ more) } =
      match Doctype.lines? ((words.map (·.contents))[0]?.getD [])
        ((words.map (·.contents))[1]?.getD []) with
      | none => .error ⟨.unknownDoctype ((words.map (·.contents))[0]?.getD []), mark.start⟩
      | some lines => .ok {
          rest := words.drop 2 ++ more
          emitted := (lines.map fun l => .literal mark.start l 0).reverse } := by
  have htake : (words ++ more).takeWhile (·.kind == .doctypeWord) = words := by
    rw [List.takeWhile_append_of_pos (by simpa using hws)]
    cases more with
    | nil => simp
    | cons t ts => rw [List.takeWhile_cons_of_neg (by simpa using hmore t ts rfl), List.append_nil]
  have hdrop : (words ++ more).drop (words.take 2).length = words.drop 2 ++ more := by
    rw [List.length_take, List.drop_append_of_le_length (Nat.min_le_right ..)]
    rcases Nat.le_total 2 words.length with h | h
    · rw [Nat.min_eq_left h]
    · rw [Nat.min_eq_right h, List.drop_length, List.drop_of_length_le h]
  have hword : ∀ i < 2, ((words.take 2).map (·.contents))[i]? = (words.map (·.contents))[i]? := by
    intro i hi
    rw [List.map_take, List.getElem?_take_of_lt hi]
  unfold readDoctype
  dsimp only
  rw [if_neg (not_not_intro hm), htake, hdrop, hword 0 (by omega), hword 1 (by omega)]
  cases Doctype.lines? _ _ with
  | none => rfl
  | some lines =>
    dsimp only
    rw [List.append_nil]

/-- A line that starts with a word of the doctype line is not read at all. -/
theorem readLine_of_doctypeWord {limit : Int} {stop : Location} {s : Layout} {w : Token}
    {ts : List Token} (hr : s.rest = w :: ts) (hw : w.kind = .doctypeWord) :
    s.readLine limit stop = .ok s := by
  have hindent : s.readIndent = s := by
    refine readIndent_of_not_indent ?_
    intro t us he
    rw [hr] at he
    cases he
    simp [hw]
  have htag : s.readTag limit stop = .ok (false, s) := by
    refine readTag_eq_false ?_
    intro t us he
    rw [hr] at he
    cases he
    simp [hw, IsMark]
  have houtput : s.readOutput limit stop = .ok (false, s) := by
    unfold readOutput
    rw [hr]
    dsimp only
    rw [hw]
  rw [readLine_eq_readBody, hindent, readBody, readFilter_of_head hr (by simp [hw])]
  show (s.readTag limit stop >>= _) = _
  rw [htag]
  show (s.readOutput limit stop >>= _) = _
  rw [houtput]
  rfl

theorem readLines_of_doctypeWord {limit : Int} {stop : Location} {s : Layout} {w : Token}
    {ts : List Token} (hr : s.rest = w :: ts) (hw : w.kind = .doctypeWord) :
    s.readLines limit stop = .error ⟨.unexpectedToken w, w.start⟩ := by
  rw [readLines_cons hr, readLine_of_doctypeWord hr hw]
  show (if s.rest.length < s.rest.length then _ else _) = _
  rw [if_neg (Nat.lt_irrefl _)]

end Layout

theorem doctype_cases (source : Text) :
    (∀ t ∈ (splitLines (normalise source)).head?, Text.cut? ['!', '!', '!'] t = none) ∨
      ∃ t ts rest, splitLines (normalise source) = t :: ts ∧
        Text.cut? ['!', '!', '!'] t = some rest := by
  cases hl : splitLines (normalise source) with
  | nil => exact .inl (by simp)
  | cons t ts =>
    cases hcut : Text.cut? ['!', '!', '!'] t with
    | none => exact .inl (by simpa using hcut)
    | some rest => exact .inr ⟨t, ts, rest, rfl, hcut⟩

theorem Layout.readDoctype_of_markup (ls : List MarkupLine) :
    Layout.readDoctype { rest := ls.flatMap (·.tokens) } =
      .ok { rest := ls.flatMap (·.tokens) } := by
  cases ls with
  | nil => rfl
  | cons l ls =>
    have hkind : l.indent.kind ≠ .doctypeMark := by
      rw [l.kind_indent]
      simp
    show (if l.indent.kind ≠ .doctypeMark then _ else _) = _
    rw [if_pos hkind]

theorem MarkupLine.not_doctypeWord_of_tokens (ls : List MarkupLine) (t : Token)
    (ts : List Token) (h : ls.flatMap (·.tokens) = t :: ts) : t.kind ≠ .doctypeWord := by
  cases ls with
  | nil => cases h
  | cons l ls =>
    cases h
    rw [l.kind_indent]
    simp

/-! ## What reading the doctype line leads to -/

theorem Doctype.lines?_isSome (keyword encoding : Text) :
    (lines? keyword encoding).isSome = true ↔
      sameFoldText keyword "xml".toList = true ∨ (declaration? keyword).isSome = true := by
  unfold lines?
  split
  · simp_all
  · simp_all

/-- The first line is a doctype line with three or more words, of which the first is `xml`, in any
case, or a keyword that stands for a declaration. -/
def DoctypeOverfull (source : Text) : Prop :=
  ∃ rest keyword : Text, (splitLines (normalise source)).head? = some (['!', '!', '!'] ++ rest) ∧
    rest.words.head? = some keyword ∧ 3 ≤ rest.words.length ∧
    (Doctype.sameFoldText keyword "xml".toList = true ∨
      (Doctype.declaration? keyword).isSome = true)

theorem doctypeOverfull_iff {source t rest : Text} {ts : List Text}
    (hlines : splitLines (normalise source) = t :: ts)
    (hcut : Text.cut? ['!', '!', '!'] t = some rest) :
    DoctypeOverfull source ↔ 3 ≤ rest.words.length ∧
      (Doctype.lines? (rest.words[0]?.getD []) (rest.words[1]?.getD [])).isSome = true := by
  rw [Doctype.lines?_isSome, ← List.head?_eq_getElem?]
  constructor
  · rintro ⟨rest', keyword, hhead, hkeyword, hlen, hknown⟩
    rw [hlines, List.head?_cons, Option.some.injEq, cut?_eq_some_iff.1 hcut] at hhead
    rw [List.append_cancel_left hhead, hkeyword]
    exact ⟨hlen, hknown⟩
  · rintro ⟨hlen, hknown⟩
    obtain ⟨keyword, more, hwords⟩ : ∃ keyword more, rest.words = keyword :: more :=
      List.exists_cons_of_length_pos (by omega)
    rw [hwords] at hknown
    refine ⟨rest, keyword, ?_, by rw [hwords]; rfl, hlen, hknown⟩
    rw [hlines, List.head?_cons, cut?_eq_some_iff.1 hcut]

/-- What reading the doctype line of a source can lead to. -/
inductive DoctypeRead (file source : Text) : Reading Layout → Prop
  /-- Its keyword is not known. -/
  | unknown {keyword : Text} {mark : Token} : ¬ DoctypeOverfull source → mark ∈ lex file source →
      DoctypeRead file source (.error ⟨.unknownDoctype keyword, mark.start⟩)
  /-- Its third word is left over. -/
  | overfull {s : Layout} {w : Token} {ts : List Token} : DoctypeOverfull source →
      w ∈ lex file source → w.kind = .doctypeWord → s.rest = w :: ts →
      DoctypeRead file source (.ok s)
  /-- The lines of markup are left, and there are its literals, if there is a doctype line. -/
  | sheet {s : Layout} {ls : List MarkupLine} : ¬ DoctypeOverfull source →
      ls.IsChain MarkupLine.Follows → s.rest = ls.flatMap (·.tokens) →
      ls.flatMap (·.tokens) ⊆ lex file source →
      (∀ k d, (k, d) ∈ ls.map (fun l => (l.number, l.depth)) ↔
        ∃ t, IsMarkup (splitLines (normalise source)) k t ∧ d = indentation t) →
      (∀ i ∈ s.emitted, HasDoctype (splitLines (normalise source)) ∧
        ∃ pos text, i = .literal pos text 0 ∧ pos.line = 0) →
      DoctypeRead file source (.ok s)

theorem readDoctype_lex (file source : Text) :
    DoctypeRead file source (Layout.readDoctype { rest := lex file source }) := by
  rcases doctype_cases source with hfirst | ⟨t, ts, rest, hlines, hcut⟩
  · obtain ⟨ls, hlex, hchain, hrows⟩ := lex_of_not_doctype file hfirst
    have hnot : ¬ DoctypeOverfull source := by
      rintro ⟨rest, keyword, hhead, -⟩
      have := hfirst _ hhead
      rw [cut?_eq_some_iff.2 rfl] at this
      cases this
    rw [hlex, Layout.readDoctype_of_markup]
    refine .sheet hnot hchain rfl (by rw [hlex]; exact List.Subset.refl _) ?_ (by simp)
    intro k d
    rw [hrows]
    exact mem_markupRows_zero hfirst
  · obtain ⟨mark, words, ls, hlex, hm, hmark, hws, hcontents, hchain, hrows⟩ :=
      lex_of_doctype file hlines hcut
    have hoverfull := doctypeOverfull_iff hlines hcut
    rw [← hcontents, List.length_map] at hoverfull
    rw [hlex, Layout.readDoctype_of_words hm hws (MarkupLine.not_doctypeWord_of_tokens ls)]
    cases hl : Doctype.lines? ((words.map (·.contents))[0]?.getD [])
        ((words.map (·.contents))[1]?.getD []) with
    | none =>
      refine .unknown ?_ (by rw [hlex]; exact List.mem_cons_self ..)
      rw [hoverfull, hl]
      simp
    | some literals =>
      rw [hl] at hoverfull
      -- two words at most are read, so that a third one is what comes next
      rcases hdrop : words.drop 2 with _ | ⟨w, ws⟩
      · have hlen := List.drop_eq_nil_iff.1 hdrop
        refine .sheet (by rw [hoverfull]; omega) hchain rfl ?_ ?_ ?_
        · rw [hlex]
          exact List.Subset.trans (List.subset_append_right ..) (List.subset_cons_self ..)
        · intro k d
          rw [hrows, hlines]
          exact mem_markupRows_one hcut
        · intro i hi
          obtain ⟨text, -, rfl⟩ := List.mem_map.1 (List.mem_reverse.1 hi)
          exact ⟨⟨t, by rw [hlines]; rfl, rest, (cut?_eq_some_iff.1 hcut).symm⟩,
            mark.start, text, rfl, hmark⟩
      · have hlen := congrArg List.length hdrop
        rw [List.length_drop, List.length_cons] at hlen
        have hw : w ∈ words := List.mem_of_mem_drop (hdrop ▸ List.mem_cons_self ..)
        refine .overfull (hoverfull.2 ⟨by omega, rfl⟩) ?_ (hws w hw) rfl
        rw [hlex]
        exact List.mem_cons_of_mem _ (List.mem_append_left _ hw)

/-! ## What can go wrong -/

theorem layOut_eq_error {maxDepth : Int} {tokens : List Token} {e : Located Problem} :
    layOut maxDepth tokens = .error e ↔
      Layout.readDoctype { rest := tokens } = .error e ∨
        ∃ s : Layout, Layout.readDoctype { rest := tokens } = .ok s ∧
          s.readLines (if maxDepth = 0 then defaultMaxDepth else maxDepth) (Layout.endOf tokens) =
            .error e := by
  unfold layOut
  dsimp only
  rw [bind_eq_error]
  refine or_congr_right (exists_congr fun s => and_congr_right fun _ => ?_)
  rw [bind_eq_error]
  simp

/-- A doctype line with more than two words fails at its third one. -/
theorem layOut_lex_of_overfull (file : Text) {source : Text} (maxDepth : Int)
    (h : DoctypeOverfull source) :
    ∃ w ∈ lex file source,
      layOut maxDepth (lex file source) = .error ⟨.unexpectedToken w, w.start⟩ := by
  have hdoc := readDoctype_lex file source
  cases hr : Layout.readDoctype { rest := lex file source } with
  | error e =>
    rw [hr] at hdoc
    cases hdoc with
    | unknown hnot => exact absurd h hnot
  | ok s =>
    rw [hr] at hdoc
    cases hdoc with
    | @overfull _ w ts _ hw hkind hrest =>
      exact ⟨w, hw, layOut_eq_error.2 (.inr ⟨s, hr, Layout.readLines_of_doctypeWord hrest hkind⟩)⟩
    | sheet hnot => exact absurd h hnot

/-- Any other source fails only for want of a known doctype, or in a line of markup. -/
theorem layOut_lex_error {file source : Text} {maxDepth : Int} {e : Located Problem}
    (hn : ¬ DoctypeOverfull source) (h : layOut maxDepth (lex file source) = .error e) :
    (∃ t ∈ lex file source, e.pos = t.start) ∧
      ((∃ keyword, e.cause = .unknownDoctype keyword) ∨
        e.cause ∈ [.shallowFilterLine, .tooDeep, .variablesWithoutBlock]) := by
  have hdoc := readDoctype_lex file source
  rcases layOut_eq_error.1 h with he | ⟨s, hs, he⟩
  · rw [he] at hdoc
    cases hdoc with
    | @unknown keyword mark _ hmark => exact ⟨⟨mark, hmark, rfl⟩, .inl ⟨keyword, rfl⟩⟩
  · rw [hs] at hdoc
    cases hdoc with
    | overfull hfull => exact absurd hfull hn
    | @sheet _ ls _ hchain hrest hsub =>
      -- nothing is asked of the lines that are read, only that reading them fails in them
      have hfails : FailsAt (ls.flatMap (·.tokens)) e := by
        have hgives : Reading.Gives (fun _ => True) (ls.flatMap (·.tokens))
            (s.readLines (if maxDepth = 0 then defaultMaxDepth else maxDepth)
              (Layout.endOf (lex file source))) :=
          Layout.readLines_of_sheet (P := fun _ _ => True) (fun _ _ _ _ _ _ _ _ => trivial) hchain
            hrest trivial
        rwa [he] at hgives
      obtain ⟨hcause, t, ht, hpos⟩ := hfails
      exact ⟨⟨t, hsub ht, hpos⟩, .inr hcause⟩

theorem ofTokens_eq_error {contextType : Text} {maxDepth : Int} {tokens : List Token}
    {e : Located Problem} :
    Program.ofTokens contextType maxDepth tokens = .error e ↔
      layOut maxDepth tokens = .error e := by
  unfold Program.ofTokens
  cases layOut maxDepth tokens <;> simp [Except.map]

namespace Program

/-- Laying out a source fails at one of its tokens, and for one of five reasons. -/
theorem ofTokens_lex_error {file source contextType : Text} {maxDepth : Int} {e : Located Problem}
    (h : Program.ofTokens contextType maxDepth (lex file source) = .error e) :
    (∃ t ∈ lex file source, e.pos = t.start) ∧
      ((∃ keyword, e.cause = .unknownDoctype keyword) ∨ e.cause = .shallowFilterLine ∨
        e.cause = .tooDeep ∨ e.cause = .variablesWithoutBlock ∨
        ∃ got, e.cause = .unexpectedToken got) := by
  rw [ofTokens_eq_error] at h
  by_cases hfull : DoctypeOverfull source
  · obtain ⟨w, hw, hlay⟩ := layOut_lex_of_overfull file maxDepth hfull
    rw [hlay] at h
    cases h
    exact ⟨⟨w, hw, rfl⟩, .inr (.inr (.inr (.inr ⟨w, rfl⟩)))⟩
  · obtain ⟨hpos, hcause | hcause⟩ := layOut_lex_error hfull h
    · exact ⟨hpos, .inl hcause⟩
    · refine ⟨hpos, .inr ?_⟩
      simp only [List.mem_cons, List.not_mem_nil, or_false] at hcause
      rcases hcause with hcause | hcause | hcause
      · exact .inl hcause
      · exact .inr (.inl hcause)
      · exact .inr (.inr (.inl hcause))

/-- The tokens of a source fit what lays them out: braced expressions and quoted strings have their
delimiters, an expression in a text ends inside it, and the indentations stand on lines further and
further down. So laying out fails, at one of the tokens, for one of five reasons only, and the last
of them is a doctype line with too many words. -/
theorem ofTokens_lex_failures (file source contextType : Text) (maxDepth : Int) :
    (∀ t ∈ lex file source, t.Delimited) ∧
      (∀ depth text n, braceEnd depth text = some n → 1 ≤ n ∧ n ≤ text.length) ∧
      ((lex file source).filter (·.kind == .indent)).Pairwise
        (fun t u => t.start.line < u.start.line) ∧
      (∀ e, Program.ofTokens contextType maxDepth (lex file source) = .error e →
        (∃ t ∈ lex file source, e.pos = t.start) ∧
          ((∃ keyword, e.cause = .unknownDoctype keyword) ∨ e.cause = .shallowFilterLine ∨
            e.cause = .tooDeep ∨ e.cause = .variablesWithoutBlock ∨
            ∃ got, e.cause = .unexpectedToken got)) ∧
      ((∃ e got, Program.ofTokens contextType maxDepth (lex file source) = .error e ∧
        e.cause = .unexpectedToken got) ↔ DoctypeOverfull source) := by
  refine ⟨fun t ht => delimited_of_mem_lexLines ht, ?_, pairwise_line_lexLines ..,
    fun e he => ofTokens_lex_error he, ?_⟩
  · intro depth text n h
    obtain ⟨hpos, hle, -⟩ := braceEnd_eq_some h
    exact ⟨hpos, hle⟩
  · constructor
    · rintro ⟨e, got, he, hcause⟩
      rw [ofTokens_eq_error] at he
      by_contra hfull
      obtain ⟨-, ⟨keyword, hk⟩ | hk⟩ := layOut_lex_error hfull he
      · rw [hk] at hcause
        cases hcause
      · rw [hcause] at hk
        simp at hk
    · intro hfull
      obtain ⟨w, -, hlay⟩ := layOut_lex_of_overfull file maxDepth hfull
      exact ⟨_, w, ofTokens_eq_error.2 hlay, rfl⟩

/-- A doctype line with one word too many fails at that word. -/
theorem ofTokens_lex_failures_three_words :
    DoctypeOverfull "!!! 5 utf-8 x".toList ∧
      ∃ e got, Program.ofTokens [] 0 (lex [] "!!! 5 utf-8 x".toList) = .error e ∧
        e.cause = .unexpectedToken got ∧ ∃ t ∈ lex [] "!!! 5 utf-8 x".toList, e.pos = t.start := by
  have hfull : DoctypeOverfull "!!! 5 utf-8 x".toList :=
    ⟨" 5 utf-8 x".toList, ['5'], by decide +kernel, by decide +kernel, by decide +kernel,
      .inr (by decide +kernel)⟩
  obtain ⟨-, -, -, hfails, hiff⟩ := ofTokens_lex_failures [] "!!! 5 utf-8 x".toList [] 0
  obtain ⟨e, got, he, hcause⟩ := hiff.2 hfull
  exact ⟨hfull, e, got, he, hcause, (hfails e he).1⟩

end Program
end Offside
