import Offside.Program.Layout
import Offside.Proofs.LineGrammar
import Offside.Proofs.Nesting

/-!
# What reading a line does

Laying out a token list reads it line by line. This module says once what reading a line can do to
the layout, for any tokens whatsoever: `readLine_ok` lists the few shapes of what is emitted and of
what becomes pending (`Adds`), and says of every new instruction that it stems from the line
(`FromLine`). Invariants of the layout follow from that list alone.
-/

namespace Offside

/-! ## Reading in sequence -/

theorem bind_eq_ok {α β : Type} {x : Reading α} {f : α → Reading β} {b : β} :
    (x >>= f) = .ok b ↔ ∃ a, x = .ok a ∧ f a = .ok b := by
  cases x <;> simp [bind, Except.bind]

theorem bind_eq_error {α β : Type} {x : Reading α} {f : α → Reading β} {e : Located Problem} :
    (x >>= f) = .error e ↔ x = .error e ∨ ∃ a, x = .ok a ∧ f a = .error e := by
  cases x <;> simp [bind, Except.bind]

theorem map_eq_ok {α β : Type} {x : Reading α} {f : α → β} {b : β} :
    x.map f = .ok b ↔ ∃ a, x = .ok a ∧ f a = b := by
  cases x <;> simp [Except.map]

/-- The tokens up to `rest` are of one line: none of them starts another. -/
def Within (ts rest : List Token) : Prop :=
  ∃ read, ts = read ++ rest ∧ ∀ t ∈ read, t.kind ≠ .indent

namespace Within

variable {ts us vs : List Token}

theorem refl (ts : List Token) : Within ts ts := ⟨[], rfl, by simp⟩

theorem cons {t : Token} (ht : t.kind ≠ .indent) (h : Within ts us) : Within (t :: ts) us := by
  obtain ⟨read, rfl, hr⟩ := h
  refine ⟨t :: read, rfl, ?_⟩
  intro u hu
  rcases List.mem_cons.1 hu with rfl | hu
  · exact ht
  · exact hr u hu

theorem trans (h : Within ts us) (h' : Within us vs) : Within ts vs := by
  obtain ⟨read, rfl, hr⟩ := h
  obtain ⟨read', rfl, hr'⟩ := h'
  refine ⟨read ++ read', by rw [List.append_assoc], ?_⟩
  intro t ht
  rcases List.mem_append.1 ht with ht | ht
  · exact hr t ht
  · exact hr' t ht

theorem suffix (h : Within ts us) : us <:+ ts := by
  obtain ⟨read, rfl, -⟩ := h
  exact List.suffix_append read us

/-- What is left of the line is the end of what the line was. -/
theorem takeWhile_suffix (h : Within ts us) :
    us.takeWhile (·.kind != .indent) <:+ ts.takeWhile (·.kind != .indent) := by
  obtain ⟨read, rfl, hr⟩ := h
  rw [List.takeWhile_append_of_pos (by simpa using hr)]
  exact List.suffix_append _ _

end Within

/-- Where something was read, it starts with a token of the line. -/
theorem Within.exists_cons {ts us : List Token} (h : Within ts us)
    (hlt : us.length < ts.length) : ∃ t rest, ts = t :: rest ∧ t.kind ≠ .indent := by
  obtain ⟨read, rfl, hr⟩ := h
  cases read with
  | nil => simp at hlt
  | cons t read => exact ⟨t, read ++ us, rfl, hr t (List.mem_cons_self ..)⟩

theorem Within.length_le {ts us : List Token} (h : Within ts us) : us.length ≤ ts.length :=
  h.suffix.length_le

/-- A line ends here: nothing follows, or a token that starts another line. -/
def LineEnd (ts : List Token) : Prop := ts = [] ∨ ∃ t rest, ts = t :: rest ∧ t.kind = .indent

theorem lineEnd_dropWhile (ts : List Token) : LineEnd (ts.dropWhile (·.kind != .indent)) := by
  cases h : ts.dropWhile (·.kind != .indent) with
  | nil => exact .inl rfl
  | cons t rest =>
    have ht := List.head?_dropWhile_not (·.kind != .indent) ts
    rw [h] at ht
    exact .inr ⟨t, rest, rfl, by simpa using ht⟩

theorem takeOne_ok {stop : Location} {kinds : List TokenKind} {ts rest : List Token} {t : Token}
    (h : takeOne stop kinds ts = .ok (t, rest)) : ts = t :: rest ∧ t.kind ∈ kinds := by
  cases ts with
  | nil => cases h
  | cons u us =>
    rw [takeOne] at h
    split at h
    · cases h
      exact ⟨rfl, ‹_›⟩
    · cases h

/-! ## Tags -/

namespace Tag

/-- Ids and classes that are read are of the line, and make the tag a tag. -/
theorem readMarks_ok {stop : Location} {tag tag' : Tag} {ts rest : List Token}
    (h : readMarks stop tag ts = .ok (tag', rest)) :
    Within ts rest ∧
      (rest = ts ∧ tag' = tag ∨ rest.length < ts.length ∧ tag'.isNothing = false) := by
  fun_induction readMarks stop tag ts with
  | case1 tag =>
    cases h
    exact ⟨.refl _, .inl ⟨rfl, rfl⟩⟩
  | case3 tag m hm v ts hv ih =>
    obtain ⟨hw, hr⟩ := ih h
    have hmk : m.kind ≠ .indent := IsMark.not_indent hm
    have hle := hw.length_le
    refine ⟨.cons hmk (.cons (not_indent_of_mem_wordKinds hv) hw), .inr ⟨?_, ?_⟩⟩
    · simp only [List.length_cons]
      omega
    · rcases hr with ⟨-, rfl⟩ | ⟨-, hr⟩
      · split <;> simp [isNothing]
      · exact hr
  | case5 tag m ts hm =>
    cases h
    exact ⟨.refl _, .inl ⟨rfl, rfl⟩⟩
  | case2 | case4 => cases h

theorem readAttributes_ok {stop : Location} {tag tag' : Tag} {ts rest : List Token}
    (h : readAttributes stop tag ts = .ok (tag', rest)) : Within ts rest := by
  fun_induction readAttributes stop tag ts with
  | case1 tag =>
    cases h
    exact .refl _
  | case4 tag n hn e he v ts hv ih =>
    have hek : e.kind ≠ .indent := by rw [he]; simp
    exact .cons (not_indent_of_mem_wordKinds hn)
      (.cons hek (.cons (not_indent_of_mem_valueKinds hv) (ih h)))
  | case7 tag n ts hn =>
    cases h
    exact .refl _
  | case2 | case3 | case5 | case6 => cases h

theorem readName_ok {stop : Location} {tag : Tag} {ts rest : List Token}
    (h : readName stop ts = .ok (tag, rest)) :
    Within ts rest ∧ (rest = ts ∧ tag = {} ∨ rest.length < ts.length ∧ tag.isNothing = false) := by
  cases ts with
  | nil =>
    cases h
    exact ⟨.refl _, .inl ⟨rfl, rfl⟩⟩
  | cons t ts =>
    rw [readName] at h
    split at h
    · rename_i ht
      rw [bind_eq_ok] at h
      obtain ⟨⟨v, us⟩, hv, h⟩ := h
      obtain ⟨rfl, hk⟩ := takeOne_ok hv
      cases h
      have htk : t.kind ≠ .indent := by rw [ht]; simp
      refine ⟨.cons htk (.cons (not_indent_of_mem_wordKinds hk) (.refl _)), .inr ⟨?_, rfl⟩⟩
      simp only [List.length_cons]
      omega
    · cases h
      exact ⟨.refl _, .inl ⟨rfl, rfl⟩⟩

/-- A tag is read off the current line; where there is none, nothing is read. -/
theorem read_ok {stop : Location} {tag? : Option Tag} {ts rest : List Token}
    (h : read stop ts = .ok (tag?, rest)) :
    Within ts rest ∧ (tag? = none ∧ rest = ts ∨ tag?.isSome = true ∧ rest.length < ts.length) := by
  unfold read at h
  rw [bind_eq_ok] at h
  obtain ⟨⟨tag₁, ts₁⟩, h₁, h⟩ := h
  rw [bind_eq_ok] at h
  obtain ⟨⟨tag₂, ts₂⟩, h₂, h⟩ := h
  obtain ⟨hw₁, hn₁⟩ := readName_ok h₁
  obtain ⟨hw₂, hn₂⟩ := readMarks_ok h₂
  have hle := hw₁.length_le
  -- nothing was read exactly if there is nothing in the tag
  have hread : ts₂ = ts ∧ tag₂.isNothing = true ∨
      ts₂.length < ts.length ∧ tag₂.isNothing = false := by
    rcases hn₂ with ⟨rfl, rfl⟩ | ⟨hlt, hn₂⟩
    · rcases hn₁ with ⟨rfl, rfl⟩ | ⟨hlt, hn₁⟩
      · exact .inl ⟨rfl, rfl⟩
      · exact .inr ⟨hlt, hn₁⟩
    · exact .inr ⟨by omega, hn₂⟩
  dsimp only at h
  split at h
  · rename_i hnothing
    rcases hread with ⟨rfl, -⟩ | ⟨-, hsome⟩
    · cases h
      exact ⟨hw₁.trans hw₂, .inl ⟨rfl, rfl⟩⟩
    · rw [hnothing] at hsome
      cases hsome
  · rename_i hsome
    rcases hread with ⟨-, hnothing⟩ | ⟨hlt, -⟩
    · exact absurd hnothing hsome
    · rw [bind_eq_ok] at h
      obtain ⟨⟨tag₃, ts₃⟩, h₃, h⟩ := h
      have hw₃ := readAttributes_ok h₃
      have hle₃ := hw₃.length_le
      cases h
      exact ⟨(hw₁.trans hw₂).trans hw₃, .inr ⟨rfl, Nat.lt_of_le_of_lt hle₃ hlt⟩⟩

end Tag

namespace Layout

/-! ## The current line -/

/-- What is left of the current line. -/
def line (s : Layout) : List Token := s.rest.takeWhile (·.kind != .indent)

/-- The instruction stems from the current line: it is placed where one of the line's tokens
starts, and its depth is that of the line. -/
def FromLine (s : Layout) (i : Instruction) : Prop :=
  (∃ t ∈ s.line, i.pos = t.start) ∧ ∀ d, i.depth? = some d → d = s.depth

theorem head_mem_line {s : Layout} {t : Token} {ts : List Token} (h : s.rest = t :: ts)
    (ht : t.kind ≠ .indent) : t ∈ s.line := by
  rw [line, h, List.takeWhile_cons_of_pos (by simpa using ht)]
  exact List.mem_cons_self ..

/-- Nothing stems from a line that is read to its end. -/
theorem FromLine.not_lineEnd {s : Layout} {i : Instruction} (h : FromLine s i) :
    ¬ LineEnd s.rest := by
  obtain ⟨⟨t, ht, -⟩, -⟩ := h
  rintro (he | ⟨u, us, he, hu⟩)
  · simp [line, he] at ht
  · simp [line, he, hu] at ht

/-- An instruction at the same place and at the depth of the line stems from it too. -/
theorem FromLine.of_pos_eq {s : Layout} {i j : Instruction} (h : FromLine s i) (hp : j.pos = i.pos)
    (hd : j.depth? = some s.depth) : FromLine s j := by
  obtain ⟨⟨t, ht, hi⟩, -⟩ := h
  refine ⟨⟨t, ht, hp.trans hi⟩, ?_⟩
  intro d he
  rw [hd] at he
  exact (Option.some.inj he).symm

/-- A scope that the line opens is at the depth of the line. -/
theorem FromLine.depth?_eq {s : Layout} {i : Instruction} (h : FromLine s i)
    (hi : i.opens = true) : i.depth? = some s.depth := by
  obtain ⟨d, hd⟩ := Instruction.depth?_of_opens hi
  rw [hd, h.2 d hd]

theorem FromLine.mono {s s' : Layout} {i : Instruction} (hw : Within s.rest s'.rest)
    (hd : s'.depth = s.depth) (h : FromLine s' i) : FromLine s i := by
  obtain ⟨⟨t, ht, hp⟩, hi⟩ := h
  exact ⟨⟨t, hw.takeWhile_suffix.subset ht, hp⟩, fun d he => (hi d he).trans hd⟩

theorem depth_eq {s s' : Layout} (h : s'.pending = s.pending) : s'.depth = s.depth := by
  rw [depth, depth, h]

theorem lineEnd_of_nextCloses {s : Layout} (h : s.nextCloses = true) : LineEnd s.rest := by
  unfold nextCloses at h
  split at h
  · exact .inl ‹_›
  · rename_i t ts hr
    simp only [Bool.and_eq_true, beq_iff_eq] at h
    exact .inr ⟨t, ts, hr, h.1⟩

theorem nextIsDeeper_cons (s : Layout) (t : Token) (ts : List Token) :
    nextIsDeeper { s with rest := t :: ts } = (t.kind == .indent && decide (s.depth < t.depth)) :=
  rfl

theorem openScope_ok {limit : Int} {s s' : Layout} {i : Instruction}
    (h : s.openScope limit i = .ok s') :
    (s.scopes : Int) < limit ∧ s'.rest = s.rest ∧ s'.emitted = i :: s.emitted ∧
      s'.pending = ⟨s.depth, true⟩ :: s.pending := by
  unfold openScope at h
  split at h
  · cases h
  · cases h
    exact ⟨by omega, rfl, rfl, rfl⟩

/-! ## Filters -/

theorem readBlock_ok {current base line : Nat} {ts rest : List Token} {text : Text}
    (h : readBlock current base line ts = .ok (text, rest)) :
    rest <:+ ts ∧ (rest = [] ∨ ∃ t us, rest = t :: us ∧ t.kind = .indent ∧ t.depth ≤ current) := by
  fun_induction readBlock current base line ts generalizing text rest with
  | case1 =>
    cases h
    exact ⟨List.suffix_rfl, .inl rfl⟩
  | case2 line t ts ht hd =>
    cases h
    exact ⟨List.suffix_rfl, .inr ⟨t, ts, rfl, ht, hd⟩⟩
  | case3 => cases h
  | case4 line t ts ht hd hb ih =>
    rw [bind_eq_ok] at h
    obtain ⟨⟨text', rest'⟩, h', h⟩ := h
    cases h
    obtain ⟨hs, hend⟩ := ih h'
    exact ⟨hs.trans (List.suffix_cons t ts), hend⟩
  | case5 line t ts ht ih =>
    rw [bind_eq_ok] at h
    obtain ⟨⟨text', rest'⟩, h', h⟩ := h
    cases h
    obtain ⟨hs, hend⟩ := ih h'
    exact ⟨hs.trans (List.suffix_cons t ts), hend⟩

theorem readFilter_of_not_mark {alone : Bool} {s : Layout}
    (h : ∀ t ts, s.rest = t :: ts → t.kind ≠ .filterMark) :
    s.readFilter alone = .ok (false, s) := by
  unfold readFilter
  split
  · rfl
  · rw [if_pos (h _ _ ‹_›)]

/-- A filter that stands alone takes the block of deeper lines after it. -/
theorem readFilter_block {s : Layout} {mark t : Token} {ts : List Token}
    (h : s.rest = mark :: t :: ts) (hm : mark.kind = .filterMark) (ht : t.kind = .indent)
    (hd : s.depth < t.depth) :
    s.readFilter true = (readBlock s.depth t.depth t.start.line ts).map fun (text, rest) =>
      (true, emit { s with rest }
        (.filtered mark.start (filterName mark.contents) text s.depth)) := by
  have hdeep : nextIsDeeper { s with rest := t :: ts } = true := by
    rw [nextIsDeeper_cons, ht, decide_eq_true hd]
    rfl
  unfold readFilter
  rw [h]
  simp only [hm, hdeep, ne_eq, not_true_eq_false, if_false, Bool.and_self]
  cases readBlock s.depth t.depth t.start.line ts <;> rfl

/-- Any other filter takes the rest of its line. -/
theorem readFilter_line {alone : Bool} {s : Layout} {mark : Token} {ts : List Token}
    (h : s.rest = mark :: ts) (hm : mark.kind = .filterMark)
    (hn : (alone && nextIsDeeper { s with rest := ts }) = false) :
    s.readFilter alone = .ok (true, emit { s with rest := ts.dropWhile (·.kind != .indent) }
      (.filtered mark.start (filterName mark.contents)
        ((ts.takeWhile (·.kind != .indent)).flatMap (·.contents)) s.depth)) := by
  unfold readFilter
  rw [h]
  simp only [hm, hn, ne_eq, not_true_eq_false, if_false]
  rfl

/-- A filter mark is the name of one instruction, and its text ends the line. -/
theorem readFilter_mark_ok {alone b : Bool} {s s' : Layout} {mark : Token} {ts : List Token}
    (hr : s.rest = mark :: ts) (hm : mark.kind = .filterMark)
    (h : s.readFilter alone = .ok (b, s')) :
    b = true ∧ s'.rest <:+ s.rest ∧ LineEnd s'.rest ∧ s'.pending = s.pending ∧
      ∃ text, s'.emitted =
        .filtered mark.start (filterName mark.contents) text s.depth :: s.emitted := by
  by_cases hn : (alone && nextIsDeeper { s with rest := ts }) = true
  · obtain ⟨rfl, hdeep⟩ := Bool.and_eq_true_iff.1 hn
    cases ts with
    | nil => cases hdeep
    | cons t ts =>
      rw [nextIsDeeper_cons, Bool.and_eq_true_iff, beq_iff_eq, decide_eq_true_iff] at hdeep
      rw [readFilter_block hr hm hdeep.1 hdeep.2] at h
      cases hb : readBlock s.depth t.depth t.start.line ts with
      | error e =>
        rw [hb] at h
        cases h
      | ok p =>
        obtain ⟨text, rest⟩ := p
        obtain ⟨hs, hend⟩ := readBlock_ok hb
        rw [hb] at h
        cases h
        refine ⟨rfl, ?_, ?_, rfl, text, rfl⟩
        · rw [hr]
          exact hs.trans ((List.suffix_cons t ts).trans (List.suffix_cons mark (t :: ts)))
        · exact hend.imp id fun ⟨t, us, he, ht, _⟩ => ⟨t, us, he, ht⟩
  · rw [readFilter_line hr hm (by simpa using hn)] at h
    cases h
    refine ⟨rfl, ?_, ?_, rfl, _, rfl⟩
    · rw [hr]
      exact (List.dropWhile_suffix _).trans (List.suffix_cons mark ts)
    · exact lineEnd_dropWhile ts

/-- Where there is no filter mark, nothing is read. -/
theorem readFilter_cases {alone b : Bool} {s s' : Layout} (h : s.readFilter alone = .ok (b, s')) :
    (b = false ∧ s' = s ∧ ∀ t ts, s.rest = t :: ts → t.kind ≠ .filterMark) ∨
      ∃ mark ts text, s.rest = mark :: ts ∧ mark.kind = .filterMark ∧ b = true ∧
        s'.rest <:+ s.rest ∧ LineEnd s'.rest ∧ s'.pending = s.pending ∧
        s'.emitted = .filtered mark.start (filterName mark.contents) text s.depth :: s.emitted := by
  by_cases hmark : ∃ mark ts, s.rest = mark :: ts ∧ mark.kind = .filterMark
  · obtain ⟨mark, ts, hr, hm⟩ := hmark
    obtain ⟨hb, hsuf, hend, hpe, text, hem⟩ := readFilter_mark_ok hr hm h
    exact .inr ⟨mark, ts, text, hr, hm, hb, hsuf, hend, hpe, hem⟩
  · have hne : ∀ t ts, s.rest = t :: ts → t.kind ≠ .filterMark :=
      fun t ts hr hm => hmark ⟨t, ts, hr, hm⟩
    rw [readFilter_of_not_mark hne] at h
    cases h
    exact .inl ⟨rfl, rfl, hne⟩

/-- A filter is one instruction, and it ends its line. -/
theorem readFilter_ok {alone b : Bool} {s s' : Layout} (h : s.readFilter alone = .ok (b, s')) :
    b = false ∧ s' = s ∨
      b = true ∧ s'.rest <:+ s.rest ∧ LineEnd s'.rest ∧ s'.pending = s.pending ∧
        ∃ i, i.isLeaf = true ∧ FromLine s i ∧ s'.emitted = i :: s.emitted := by
  rcases readFilter_cases h with
    ⟨rfl, rfl, -⟩ | ⟨mark, ts, text, hr, hm, rfl, hsuf, hend, hpe, hem⟩
  · exact .inl ⟨rfl, rfl⟩
  · refine .inr ⟨rfl, hsuf, hend, hpe, _, rfl, ⟨⟨mark, ?_, rfl⟩, ?_⟩, hem⟩
    · exact head_mem_line hr (by rw [hm]; simp)
    · intro d hd
      exact (Option.some.inj hd).symm

/-! ## Tags and output -/

theorem readTag_of_none {limit : Int} {stop : Location} {s : Layout} {rest : List Token}
    (h : Tag.read stop s.rest = .ok (none, rest)) :
    s.readTag limit stop = .ok (false, { s with rest }) := by
  unfold readTag
  rw [h]
  rfl

theorem readTag_of_some {limit : Int} {stop : Location} {s : Layout} {tag : Tag} {t : Token}
    {ts rest : List Token} (h : Tag.read stop s.rest = .ok (some tag, rest))
    (hr : s.rest = t :: ts) :
    s.readTag limit stop =
      if nextCloses { s with rest } then
        .ok (true, emit { s with rest }
          (.ofFragments t.start (Fragments.join [tag.opening, tag.closing]) s.depth))
      else (openScope limit { s with rest }
        (.openTag t.start tag.opening tag.closing s.depth 0)).map (true, ·) := by
  unfold readTag
  rw [h]
  simp only [bind, Except.bind, hr]
  split
  · rfl
  · unfold Except.map
    rfl

/-- A tag is one entry, which ends its line, or opens a scope. -/
theorem readTag_ok {limit : Int} {stop : Location} {b : Bool} {s s' : Layout}
    (h : s.readTag limit stop = .ok (b, s')) :
    b = false ∧ s' = s ∨
      b = true ∧ Within s.rest s'.rest ∧
        ((∃ i, i.isLeaf = true ∧ FromLine s i ∧ LineEnd s'.rest ∧ s'.emitted = i :: s.emitted ∧
            s'.pending = s.pending) ∨
          ∃ pos opening closing, FromLine s (.openTag pos opening closing s.depth 0) ∧
            (s.scopes : Int) < limit ∧
            s'.emitted = .openTag pos opening closing s.depth 0 :: s.emitted ∧
            s'.pending = ⟨s.depth, true⟩ :: s.pending) := by
  cases hread : Tag.read stop s.rest with
  | error e =>
    unfold readTag at h
    rw [hread] at h
    cases h
  | ok p =>
    obtain ⟨tag?, rest⟩ := p
    obtain ⟨hw, ⟨rfl, rfl⟩ | ⟨hsome, hlt⟩⟩ := Tag.read_ok hread
    · rw [readTag_of_none hread] at h
      cases h
      exact .inl ⟨rfl, rfl⟩
    · obtain ⟨tag, rfl⟩ := Option.isSome_iff_exists.1 hsome
      obtain ⟨t, ts, hr, ht⟩ := hw.exists_cons hlt
      rw [readTag_of_some hread hr] at h
      right
      split at h
      · cases h
        refine ⟨rfl, hw, .inl ⟨_, Instruction.isLeaf_ofFragments ..,
          ⟨⟨t, head_mem_line hr ht, Instruction.pos_ofFragments ..⟩, ?_⟩,
          lineEnd_of_nextCloses ‹_›, rfl, rfl⟩⟩
        intro d hd
        rw [Instruction.depth?_ofFragments] at hd
        exact (Option.some.inj hd).symm
      · obtain ⟨s₁, hopen, h⟩ := map_eq_ok.1 h
        obtain ⟨hlim, hrest, hem, hpe⟩ := openScope_ok hopen
        cases h
        refine ⟨rfl, hrest ▸ hw, .inr ⟨t.start, tag.opening, tag.closing,
          ⟨⟨t, head_mem_line hr ht, rfl⟩, ?_⟩, hlim, hem, hpe⟩⟩
        intro d hd
        exact (Option.some.inj hd).symm

theorem readCodeBody_ok {stop : Location} {ts rest : List Token} {code : Token} {vars : List Text}
    (h : readCodeBody stop ts = .ok ((code, vars), rest)) :
    Within ts rest ∧ ∃ us, ts = code :: us ∧ code.kind = .code := by
  unfold readCodeBody at h
  rw [bind_eq_ok] at h
  obtain ⟨⟨c, us⟩, hc, h⟩ := h
  obtain ⟨rfl, hk⟩ := takeOne_ok hc
  have hk : c.kind = .code := by simpa using hk
  have hci : c.kind ≠ .indent := by rw [hk]; simp
  dsimp only at h
  split at h
  · rename_i t us
    split at h
    · rename_i ht
      rw [bind_eq_ok] at h
      obtain ⟨⟨v, vs⟩, hv, h⟩ := h
      obtain ⟨rfl, hvk⟩ := takeOne_ok hv
      cases h
      have hti : t.kind ≠ .indent := by rw [ht]; simp
      have hvi : v.kind ≠ .indent := by rw [List.mem_singleton.1 hvk]; simp
      exact ⟨.cons hci (.cons hti (.cons hvi (.refl _))), _, rfl, hk⟩
    · cases h
      exact ⟨.cons hci (.refl _), _, rfl, hk⟩
  · cases h
    exact ⟨.cons hci (.refl _), _, rfl, hk⟩

/-- Output adds an instruction of its own, or it opens a control block. -/
def AddsOutput (limit : Int) (s s' : Layout) : Prop :=
  (∃ i, i.isLeaf = true ∧ FromLine s i ∧ s'.emitted = i :: s.emitted ∧ s'.pending = s.pending) ∨
    ∃ pos control, FromLine s (.openControl pos control s.depth 0) ∧ (s.scopes : Int) < limit ∧
      s'.emitted = .openControl pos control s.depth 0 :: s.emitted ∧
      s'.pending = ⟨s.depth, true⟩ :: s.pending

theorem readCode_ok {limit : Int} {stop : Location} {capture : Bool}
    {leaf : Location → Text → Nat → Instruction} {s s' : Layout} {ts : List Token}
    (hleaf : ∀ pos source, (leaf pos source s.depth).isLeaf = true ∧
      (leaf pos source s.depth).pos = pos ∧
      ∀ d, (leaf pos source s.depth).depth? = some d → d = s.depth)
    (hts : Within s.rest ts) (h : readCode limit stop capture leaf s ts = .ok s') :
    Within s.rest s'.rest ∧
      AddsOutput limit s s' := by
  unfold readCode at h
  rw [bind_eq_ok] at h
  obtain ⟨⟨⟨code, vars⟩, rest⟩, hbody, h⟩ := h
  obtain ⟨hw, us, rfl, hk⟩ := readCodeBody_ok hbody
  have hmem : code ∈ s.line := hts.takeWhile_suffix.subset (by simp [hk])
  dsimp only at h
  split at h
  · obtain ⟨hlim, hrest, hem, hpe⟩ := openScope_ok h
    refine ⟨hrest ▸ hts.trans hw, .inr ⟨_, _, ⟨⟨code, hmem, rfl⟩, ?_⟩, hlim, hem, hpe⟩⟩
    intro d hd
    exact (Option.some.inj hd).symm
  · split at h
    · cases h
      obtain ⟨hl, hp, hd⟩ := hleaf code.start code.contents
      exact ⟨hts.trans hw, .inl ⟨_, hl, ⟨⟨code, hmem, hp⟩, hd⟩, rfl, rfl⟩⟩
    · cases h

theorem readOutput_ok {limit : Int} {stop : Location} {b : Bool} {s s' : Layout}
    (h : s.readOutput limit stop = .ok (b, s')) :
    b = false ∧ s' = s ∨ b = true ∧ s'.rest <:+ s.rest ∧ AddsOutput limit s s' := by
  unfold readOutput at h
  split at h
  · cases h
    exact .inl ⟨rfl, rfl⟩
  · rename_i mark ts hr
    have hwithin : mark.kind ≠ .indent → Within s.rest ts := by
      intro hm
      rw [hr]
      exact .cons hm (.refl ts)
    have hcode : ∀ {capture : Bool} {leaf : Location → Text → Nat → Instruction},
        mark.kind ≠ .indent →
        (∀ pos source, (leaf pos source s.depth).isLeaf = true ∧
          (leaf pos source s.depth).pos = pos ∧
          ∀ d, (leaf pos source s.depth).depth? = some d → d = s.depth) →
        (readCode limit stop capture leaf s ts >>= fun s => .ok (true, s)) = .ok (b, s') →
        b = true ∧ s'.rest <:+ s.rest ∧ AddsOutput limit s s' := by
      intro capture leaf hm hleaf h
      rw [bind_eq_ok] at h
      obtain ⟨s₁, hread, h⟩ := h
      cases h
      obtain ⟨hw, hadds⟩ := readCode_ok hleaf (hwithin hm) hread
      exact ⟨rfl, hw.suffix, hadds⟩
    split at h
    · obtain ⟨rfl, rfl⟩ | ⟨rfl, hsuf, -, hpe, i, hi, hf, hem⟩ := readFilter_ok h
      · exact .inl ⟨rfl, rfl⟩
      · exact .inr ⟨rfl, hsuf, .inl ⟨i, hi, hf, hem, hpe⟩⟩
    · rename_i hm
      refine .inr (hcode (by simp [hm]) (fun pos source => ⟨rfl, rfl, ?_⟩) h)
      simp [Instruction.depth?]
    · rename_i hm
      refine .inr (hcode (by simp [hm]) (fun pos source => ⟨rfl, rfl, ?_⟩) h)
      simp [Instruction.depth?]
    · rename_i hm
      have hne : mark.kind ≠ .indent := by rw [hm]; simp
      rw [bind_eq_ok] at h
      obtain ⟨⟨comment, rest⟩, hc, h⟩ := h
      obtain ⟨rfl, -⟩ := takeOne_ok hc
      cases h
      refine .inr ⟨rfl, (List.suffix_cons comment rest).trans (hwithin hne).suffix,
        .inl ⟨_, rfl, ⟨⟨mark, head_mem_line hr hne, rfl⟩, ?_⟩, rfl, rfl⟩⟩
      simp [Instruction.depth?]
    · rename_i hm
      have hne : mark.kind ≠ .indent := by rw [hm]; simp
      cases h
      refine .inr ⟨rfl, (hwithin hne).suffix, .inl ⟨_, Instruction.isLeaf_ofFragments ..,
        ⟨⟨mark, head_mem_line hr hne, Instruction.pos_ofFragments ..⟩, ?_⟩, rfl, rfl⟩⟩
      simp
    · cases h
      exact .inl ⟨rfl, rfl⟩

/-! ## A tag with its output -/

/-- Joining takes the output into the tag, as one entry in place of the scope or into its opening
text, or it changes nothing. -/
theorem fuse_cases {s : Layout} {i : Instruction} {pos : Location} {opening closing : Fragments}
    {depth : Nat} {em : List Instruction}
    (h : s.emitted = i :: .openTag pos opening closing depth 0 :: em) :
    s.fuse = s ∨
      ∃ v, contentOf? i = some v ∧
        (s.fuse = { s with
            emitted := .ofFragments pos (Fragments.join [opening, v, closing]) depth :: em
            pending := s.pending.tail } ∨
          s.fuse = { s with
            emitted := .openTag pos (Fragments.join [opening, v]) closing depth 0 :: em }) := by
  unfold fuse
  rw [h]
  dsimp only
  split
  · exact .inl rfl
  · rename_i v hv
    split
    · exact .inr ⟨v, hv, .inl rfl⟩
    · split
      · exact .inr ⟨v, hv, .inr rfl⟩
      · exact .inl rfl

/-- What reading one line at depth `d` adds, with `scopes` scopes open before it: the instructions,
newest first, and the scopes that they leave open. -/
inductive Adds (limit : Int) (scopes d : Nat) : List Instruction → List Pending → Prop
  /-- A line that is an entry of its own. -/
  | leaf {i : Instruction} : i.isLeaf = true → Adds limit scopes d [i] []
  /-- A line that opens a tag, or one that opens a control block. -/
  | scope {i : Instruction} : i.opens = true → (scopes : Int) < limit →
      Adds limit scopes d [i] [⟨d, true⟩]
  /-- A tag with an instruction in it. -/
  | leafInTag {i t : Instruction} : i.isLeaf = true → t.opens = true → (scopes : Int) < limit →
      Adds limit scopes d [i, t] [⟨d, true⟩]
  /-- A tag with a control block in it. -/
  | scopeInTag {i t : Instruction} : i.opens = true → t.opens = true →
      (scopes + 1 : Int) < limit → Adds limit scopes d [i, t] [⟨d, true⟩, ⟨d, true⟩]

/-- The line that starts at `s` leads to `s'`: nothing is read, or something is added. -/
def LineRead (limit : Int) (s s' : Layout) : Prop :=
  s' = s ∨
    ∃ new opened, s'.emitted = new ++ s.emitted ∧ s'.pending = opened ++ s.pending ∧
      Adds limit s.scopes s.depth new opened ∧ (∀ i ∈ new, FromLine s i) ∧ s'.rest <:+ s.rest

/-- Nothing is read where the line is at its end. -/
theorem readOutput_of_lineEnd {limit : Int} {stop : Location} {b : Bool} {s s' : Layout}
    (hend : LineEnd s.rest) (h : s.readOutput limit stop = .ok (b, s')) : b = false ∧ s' = s := by
  rcases readOutput_ok h with hn | ⟨-, -, ⟨i, -, hf, -⟩ | ⟨pos, control, hf, -⟩⟩
  · exact hn
  · exact absurd hend hf.not_lineEnd
  · exact absurd hend hf.not_lineEnd

theorem readTag_of_lineEnd {limit : Int} {stop : Location} {b : Bool} {s s' : Layout}
    (hend : LineEnd s.rest) (h : s.readTag limit stop = .ok (b, s')) : b = false ∧ s' = s := by
  rcases readTag_ok h with hn | ⟨-, -, ⟨i, -, hf, -⟩ | ⟨pos, opening, closing, hf, -⟩⟩
  · exact hn
  · exact absurd hend hf.not_lineEnd
  · exact absurd hend hf.not_lineEnd

/-- A tag and the output after it on its line, joined or not, are one of the ways to add to the
layout. -/
theorem lineRead_fuse {limit : Int} {stop : Location} {s s₁ s₂ : Layout}
    (h₁ : s.readTag limit stop = .ok (true, s₁)) (h₂ : s₁.readOutput limit stop = .ok (true, s₂)) :
    LineRead limit s s₂.fuse := by
  rcases readTag_ok h₁ with ⟨hn, -⟩ |
    ⟨-, hw, ⟨i, -, -, hend, -, -⟩ | ⟨pos, opening, closing, hf, hlim, hem, hpe⟩⟩
  · cases hn
  · cases (readOutput_of_lineEnd hend h₂).1
  have hd : s₁.depth = s.depth := by simp only [depth, hpe]
  rcases readOutput_ok h₂ with ⟨hn, -⟩ |
    ⟨-, hsuf, ⟨i, hi, hf', hem', hpe'⟩ | ⟨pos', control, hf', hlim', hem', hpe'⟩⟩
  · cases hn
  · rw [hem] at hem'
    rw [hpe] at hpe'
    replace hf' := hf'.mono hw hd
    replace hsuf := hsuf.trans hw.suffix
    rcases fuse_cases hem' with he | ⟨v, -, he | he⟩ <;> rw [he]
    · exact .inr ⟨[_, _], [_], hem', hpe', .leafInTag hi rfl hlim, by simpa using ⟨hf', hf⟩, hsuf⟩
    · have hjoined := hf.of_pos_eq (Instruction.pos_ofFragments pos
        (Fragments.join [opening, v, closing]) s.depth) (Instruction.depth?_ofFragments ..)
      exact .inr ⟨[_], [], rfl, by rw [hpe']; rfl, .leaf (Instruction.isLeaf_ofFragments ..),
        by simpa using hjoined, hsuf⟩
    · have hjoined : FromLine s (.openTag pos (Fragments.join [opening, v]) closing s.depth 0) :=
        hf.of_pos_eq rfl rfl
      exact .inr ⟨[_], [_], rfl, hpe', .scope rfl hlim, by simpa using hjoined, hsuf⟩
  · -- a control block is no content, so that the tag stays around it
    have hscopes : s₁.scopes = s.scopes + 1 := by simp [scopes, hpe]
    rw [hem] at hem'
    rw [hpe, hd] at hpe'
    rw [hscopes] at hlim'
    rcases fuse_cases hem' with he | ⟨v, hv, -⟩
    · rw [he]
      exact .inr ⟨[_, _], [_, _], hem', hpe', .scopeInTag rfl rfl (by omega),
        by simpa using ⟨hf'.mono hw hd, hf⟩, hsuf.trans hw.suffix⟩
    · cases hv

/-- Reading the line of `s`, after its indentation, leads to one of the states of `LineRead`. -/
theorem readLine_ok {limit : Int} {stop : Location} {s s' : Layout}
    (h : s.readLine limit stop = .ok s') : LineRead limit s.readIndent s' := by
  unfold readLine at h
  generalize s.readIndent = s₀ at h ⊢
  dsimp only at h
  rw [bind_eq_ok] at h
  obtain ⟨⟨filtered, s₁⟩, h₁, h⟩ := h
  rw [bind_eq_ok] at h
  obtain ⟨⟨tagged, s₂⟩, h₂, h⟩ := h
  rw [bind_eq_ok] at h
  obtain ⟨⟨output, s₃⟩, h₃, h⟩ := h
  dsimp only at h₂ h₃ h
  rcases readFilter_ok h₁ with ⟨-, rfl⟩ | ⟨-, hsuf, hend, hpe, i, hi, hf, hem⟩
  case inr =>
    -- after a filter the line is at its end
    obtain ⟨rfl, rfl⟩ := readTag_of_lineEnd hend h₂
    obtain ⟨rfl, rfl⟩ := readOutput_of_lineEnd hend h₃
    cases h
    exact .inr ⟨[i], [], hem, hpe, .leaf hi, by simpa using hf, hsuf⟩
  rcases readTag_ok h₂ with ⟨rfl, rfl⟩ | ⟨rfl, hw, htag⟩
  · -- there is no tag, only output
    cases h
    rcases readOutput_ok h₃ with ⟨-, rfl⟩ |
      ⟨-, hsuf, ⟨i, hi, hf, hem, hpe⟩ | ⟨pos, control, hf, hlim, hem, hpe⟩⟩
    · exact .inl rfl
    · exact .inr ⟨[i], [], hem, hpe, .leaf hi, by simpa using hf, hsuf⟩
    · exact .inr ⟨[_], [_], hem, hpe, .scope rfl hlim, by simpa using hf, hsuf⟩
  · cases output with
    | true =>
      cases h
      exact lineRead_fuse h₂ h₃
    | false =>
      -- there is only the tag
      cases h
      rcases readOutput_ok h₃ with ⟨-, rfl⟩ | ⟨hn, -⟩
      · rcases htag with ⟨i, hi, hf, -, hem, hpe⟩ | ⟨pos, opening, closing, hf, hlim, hem, hpe⟩
        · exact .inr ⟨[i], [], hem, hpe, .leaf hi, by simpa using hf, hw.suffix⟩
        · exact .inr ⟨[_], [_], hem, hpe, .scope rfl hlim, by simpa using hf, hw.suffix⟩
      · cases hn

/-! ## Lines one after the other -/

/-- What ends is what is pending before the first thing that is less deep, and every scope among it
gets a closing instruction. -/
theorem closePending_eq (d : Nat) (emitted : List Instruction) (pending : List Pending) :
    closePending d emitted pending =
      (List.replicate ((pending.takeWhile (d ≤ ·.depth)).countP (·.scope)) .close ++ emitted,
        pending.dropWhile (d ≤ ·.depth)) := by
  fun_induction closePending d emitted pending with
  | case1 => rfl
  | case2 emitted p ps hd ih =>
    rw [ih, List.takeWhile_cons_of_pos (by simpa using hd),
      List.dropWhile_cons_of_pos (by simpa using hd), List.countP_cons]
    cases p.scope with
    | false => rfl
    | true => simp [List.replicate_succ']
  | case3 emitted p ps hd =>
    rw [List.takeWhile_cons_of_neg (by simpa using hd),
      List.dropWhile_cons_of_neg (by simpa using hd)]
    rfl

theorem exists_emitted_closeTo (s : Layout) (d : Nat) :
    ∃ k, (s.closeTo d).emitted = List.replicate k .close ++ s.emitted := by
  simp only [closeTo, closePending_eq]
  exact ⟨_, rfl⟩

theorem readIndent_of_indent {s : Layout} {t : Token} {ts : List Token} (h : s.rest = t :: ts)
    (ht : t.kind = .indent) :
    s.readIndent = { closeTo { s with rest := ts } t.depth with
      pending := ⟨t.depth, false⟩ :: (closeTo { s with rest := ts } t.depth).pending } := by
  simp only [readIndent, h, ht, if_true]

theorem readIndent_of_not_indent {s : Layout} (h : ∀ t ts, s.rest = t :: ts → t.kind ≠ .indent) :
    s.readIndent = s := by
  unfold readIndent
  split
  · rfl
  · rw [if_neg (h _ _ ‹_›)]

theorem readLines_nil {limit : Int} {stop : Location} {s : Layout} (h : s.rest = []) :
    s.readLines limit stop = .ok s := by
  unfold readLines
  split
  · rfl
  · simp_all

theorem readLines_cons {limit : Int} {stop : Location} {s : Layout} {t : Token} {ts : List Token}
    (h : s.rest = t :: ts) :
    s.readLines limit stop = s.readLine limit stop >>= fun s' =>
      if s'.rest.length < s.rest.length then s'.readLines limit stop
      else .error ⟨.unexpectedToken t, t.start⟩ := by
  conv_lhs => unfold readLines
  split
  · simp_all
  · rename_i u us he
    rw [h] at he
    cases he
    rfl

/-- What holds at the start and is kept by every line that is read holds at the end, where
everything is read. -/
theorem readLines_ok {limit : Int} {stop : Location} {P : Layout → Prop} {s s' : Layout}
    (hstep : ∀ s s', P s → s.rest ≠ [] → s.readLine limit stop = .ok s' → P s') (hs : P s)
    (h : s.readLines limit stop = .ok s') : P s' ∧ s'.rest = [] := by
  fun_induction readLines limit stop s with
  | case1 s hr =>
    cases h
    exact ⟨hs, hr⟩
  | case2 s t ts hr ih =>
    rw [bind_eq_ok] at h
    obtain ⟨s₁, h₁, h⟩ := h
    split at h
    · exact ih s₁ ‹_› (hstep s s₁ hs (by simp [hr]) h₁) h
    · cases h

end Layout
end Offside
