import Offside.Disk
import Offside.Proofs.Positions
import Offside.Proofs.PrettyOutput

/-!
# Writing files

A rooted path that is cleaned is a list of names (`Path.IsFull`), and following it on a disk leads
nowhere else. A file that is written is therefore found at its path (`Disk.read_write_self`), and of
the other files at such paths writing changes none (`Disk.read_write_of_ne`): neither does the
temporary version leave anything behind, nor does a new file open a way to what could not be read
before. What builds on this asks no more of a way to write files (`Disk.Writing.Replaces`).
-/

namespace Offside

/-! ## Length in bytes -/

namespace Text

theorem byteLength_append (s t : Text) : byteLength (s ++ t) = byteLength s + byteLength t := by
  induction s with
  | nil => simp [byteLength]
  | cons c s ih =>
    rw [List.cons_append, byteLength, byteLength, ih]
    omega

end Text

/-! ## Full paths -/

namespace Path

/-- The part names something in a folder. -/
structure IsName (part : Text) : Prop where
  ne_nil : part ≠ []
  ne_dot : part ≠ ['.']
  ne_dots : part ≠ ['.', '.']
  slash : '/' ∉ part

theorem IsName.not_skipped {part : Text} (h : IsName part) : ¬ (part = [] ∨ part = ['.']) := by
  rintro (he | he)
  · exact h.ne_nil he
  · exact h.ne_dot he

theorem isName_concat {parts : List Text} {name : Text} :
    (∀ part ∈ parts ++ [name], IsName part) ↔ (∀ part ∈ parts, IsName part) ∧ IsName name := by
  rw [List.forall_mem_append, List.forall_mem_singleton]

/-- The rooted path with the given parts. -/
def ofParts (parts : List Text) : Text := '/' :: Text.join ['/'] parts

/-- A rooted path that is cleaned: it is a list of names. -/
def IsFull (p : Text) : Prop := ∃ parts, (∀ part ∈ parts, IsName part) ∧ p = ofParts parts

theorem isRooted_iff {p : Text} : isRooted p = true ↔ ∃ t, p = '/' :: t := by
  unfold isRooted
  split <;> simp_all

theorem reduceParts_cons_nil (rooted : Bool) (done parts : List Text) :
    reduceParts rooted done ([] :: parts) = reduceParts rooted done parts := by
  simp [reduceParts]

theorem reduceParts_of_isName {parts : List Text} (h : ∀ part ∈ parts, IsName part) (rooted : Bool)
    (done : List Text) : reduceParts rooted done parts = parts.reverse ++ done := by
  induction parts generalizing done with
  | nil => rfl
  | cons part parts ih =>
    obtain ⟨hpart, hparts⟩ := List.forall_mem_cons.1 h
    unfold reduceParts
    rw [if_neg hpart.not_skipped, if_neg hpart.ne_dots, ih hparts, List.reverse_cons,
      List.append_assoc, List.singleton_append]

/-- What is left of the parts of a rooted path are names. -/
theorem isName_reduceParts {done parts : List Text} (hdone : ∀ part ∈ done, IsName part)
    (hparts : ∀ part ∈ parts, '/' ∉ part) :
    ∀ part ∈ reduceParts true done parts, IsName part := by
  induction parts generalizing done with
  | nil => exact hdone
  | cons part parts ih =>
    obtain ⟨hpart, hparts⟩ := List.forall_mem_cons.1 hparts
    unfold reduceParts
    split
    · exact ih hdone hparts
    · rename_i hplain
      rw [not_or] at hplain
      split
      · -- a step up takes the name before it back, and above the root there is nothing
        split
        · exact ih hdone hparts
        · obtain ⟨htop, hbelow⟩ := List.forall_mem_cons.1 hdone
          rw [if_neg htop.ne_dots]
          exact ih hbelow hparts
      · rename_i hdots
        exact ih (List.forall_mem_cons.2 ⟨⟨hplain.1, hplain.2, hdots, hpart⟩, hdone⟩) hparts

theorem clean_of_isRooted {p : Text} (h : isRooted p = true) :
    clean p = ofParts (reduceParts true [] (Text.splitAt '/' p)).reverse := by
  simp only [clean, h, if_true]
  rfl

theorem isFull_clean {p : Text} (h : isRooted p = true) : IsFull (clean p) := by
  refine ⟨_, ?_, clean_of_isRooted h⟩
  intro part hpart
  exact isName_reduceParts (by simp) (fun _ hp => Text.not_mem_of_mem_splitAt hp) part
    (List.mem_reverse.1 hpart)

theorem isFull_join {p : Text} (h : isRooted p = true) (parts : List Text) :
    IsFull (join (p :: parts)) := by
  obtain ⟨t, rfl⟩ := isRooted_iff.1 h
  have hfilter : ((('/' :: t) :: parts).filter (· ≠ [])) =
      ('/' :: t) :: parts.filter (· ≠ []) := by simp
  unfold join
  rw [hfilter]
  refine isFull_clean ?_
  cases parts.filter (· ≠ []) with
  | nil => rfl
  | cons part more => rfl

theorem isFull_resolve {here : Text} (h : isRooted here = true) (p : Text) :
    IsFull (resolve here p) := by
  unfold resolve
  split
  · exact isFull_clean ‹_›
  · exact isFull_join h [p]

theorem IsFull.isRooted {p : Text} (h : IsFull p) : isRooted p = true := by
  obtain ⟨parts, -, rfl⟩ := h
  rfl

theorem splitAt_ofParts {parts : List Text} (h : ∀ part ∈ parts, IsName part) :
    Text.splitAt '/' (ofParts parts) = [] :: (if parts = [] then [[]] else parts) := by
  rw [ofParts, Text.splitAt_cons_self]
  split
  · rename_i he
    rw [he]
    rfl
  · rename_i hne
    rw [Text.splitAt_join hne fun part hpart => (h part hpart).slash]

/-- A name below a full path is a full path. -/
theorem join_ofParts {parts : List Text} {name : Text} (h : ∀ part ∈ parts, IsName part)
    (hname : IsName name) : join [ofParts parts, name] = ofParts (parts ++ [name]) := by
  have hall : ∀ part ∈ parts ++ [name], IsName part := isName_concat.2 ⟨h, hname⟩
  have hfilter : [ofParts parts, name].filter (· ≠ []) = [ofParts parts, name] := by
    simp [ofParts, hname.ne_nil]
  have hreduced : reduceParts true [] (Text.splitAt '/' (ofParts parts ++ '/' :: name)) =
      (parts ++ [name]).reverse := by
    rw [Text.splitAt_append_sep, splitAt_ofParts h, Text.splitAt_of_not_mem hname.slash,
      List.cons_append, reduceParts_cons_nil]
    split
    · rename_i he
      rw [he, List.cons_append, reduceParts_cons_nil, List.nil_append,
        reduceParts_of_isName (by simpa using hname), List.append_nil]
    · rw [reduceParts_of_isName hall, List.append_nil]
  unfold join
  rw [hfilter]
  show clean (ofParts parts ++ ['/'] ++ name) = _
  rw [List.append_assoc, List.singleton_append, clean_of_isRooted rfl, hreduced,
    List.reverse_reverse]

theorem split_append {name : Text} (h : '/' ∉ name) (t : Text) :
    split (t ++ '/' :: name) = (t ++ ['/'], name) := by
  have hname : ∀ c ∈ name.reverse, (decide (c ≠ '/')) = true := by
    intro c hc
    rw [decide_eq_true_iff]
    rintro rfl
    exact h (List.mem_reverse.1 hc)
  rw [split, List.reverse_append, List.reverse_cons, List.append_assoc, List.singleton_append,
    List.dropWhile_append_of_pos hname, List.takeWhile_append_of_pos hname]
  simp

/-- A full path other than the root is cut into a folder and a name at its last slash. -/
theorem exists_split_ofParts {parts : List Text} (h : ∀ part ∈ parts, IsName part) (name : Text) :
    ∃ t, ofParts (parts ++ [name]) = t ++ '/' :: name ∧ Text.splitAt '/' t = [] :: parts ∧
      isRooted (t ++ ['/']) = true := by
  by_cases hne : parts = []
  · rw [hne]
    exact ⟨[], rfl, rfl, rfl⟩
  · refine ⟨ofParts parts, ?_, ?_, rfl⟩
    · rw [ofParts, Text.join_append hne (List.cons_ne_nil _ _), List.append_assoc]
      rfl
    · rw [splitAt_ofParts h, if_neg hne]

end Path

/-! ## Following paths -/

namespace Disk

variable {d d' : Disk} {place : Text}

theorem walk_append (d : Disk) (place : Text) (parts more : List Text) :
    d.walk place (parts ++ more) = d.walk place parts >>= fun p => d.walk p more := by
  induction parts generalizing place with
  | nil => rfl
  | cons part parts ih =>
    rw [List.cons_append, walk, walk]
    split
    · rfl
    · split
      · exact ih place
      · split
        · exact ih _
        · split
          · rfl
          · dsimp only
            split
            · exact ih _
            · rfl

theorem walk_cons_nil (hplace : d.isFolder place = true) (parts : List Text) :
    d.walk place ([] :: parts) = d.walk place parts := by
  rw [walk, hplace]
  simp

/-- A slash at the end of a path leads no further. -/
theorem walk_concat_nil {parts : List Text} {p : Text}
    (h : d.walk place (parts ++ [[]]) = .ok p) : d.walk place parts = .ok p := by
  rw [walk_append] at h
  cases hwalk : d.walk place parts with
  | error e =>
    rw [hwalk] at h
    cases h
  | ok q =>
    rw [hwalk] at h
    change d.walk q [[]] = .ok p at h
    rw [walk] at h
    split at h
    · cases h
    · simpa [walk] using h

/-- A name leads from a folder to what has that name there. -/
theorem walk_cons_eq_ok {done parts : List Text} {name p : Text}
    (hdone : ∀ part ∈ done, Path.IsName part) (hname : Path.IsName name) :
    d.walk (Path.ofParts done) (name :: parts) = .ok p ↔
      d.isFolder (Path.ofParts done) = true ∧ Text.byteLength name ≤ partLimit ∧
        (d.isFolder (Path.ofParts (done ++ [name])) = true ∨
          (d.file? (Path.ofParts (done ++ [name]))).isSome = true) ∧
        d.walk (Path.ofParts (done ++ [name])) parts = .ok p := by
  rw [walk, if_neg hname.not_skipped, if_neg hname.ne_dots, Path.join_ofParts hdone hname]
  split
  · rename_i hfolder
    simp_all
  · rename_i hfolder
    split
    · rename_i hlong
      refine ⟨nofun, ?_⟩
      rintro ⟨-, hle, -⟩
      omega
    · rename_i hlong
      dsimp only
      split
      · rename_i hthere
        simp_all
      · rename_i hmissing
        simp_all

/-- Following names leads to the path that they make up. -/
theorem eq_of_walk_ok {done parts : List Text} {p : Text}
    (hdone : ∀ part ∈ done, Path.IsName part) (hparts : ∀ part ∈ parts, Path.IsName part)
    (h : d.walk (Path.ofParts done) parts = .ok p) : p = Path.ofParts (done ++ parts) := by
  induction parts generalizing done with
  | nil =>
    cases h
    rw [List.append_nil]
  | cons name parts ih =>
    obtain ⟨hname, hparts⟩ := List.forall_mem_cons.1 hparts
    have hnext := Path.isName_concat.2 ⟨hdone, hname⟩
    rw [walk_cons_eq_ok hdone hname] at h
    have hp := ih hnext hparts h.2.2.2
    rwa [List.append_assoc, List.singleton_append] at hp

/-- A new file shows on the way to no other path: it can only be the end of a way. -/
theorem walk_set {q contents : Text} (hq : d.isFolder q = false) {done parts : List Text} {p : Text}
    (hdone : ∀ part ∈ done, Path.IsName part) (hparts : ∀ part ∈ parts, Path.IsName part)
    (hne : Path.ofParts (done ++ parts) ≠ q) :
    walk { d with files := d.files.set q contents } (Path.ofParts done) parts = .ok p ↔
      d.walk (Path.ofParts done) parts = .ok p := by
  induction parts generalizing done with
  | nil => exact Iff.rfl
  | cons name parts ih =>
    obtain ⟨hname, hparts⟩ := List.forall_mem_cons.1 hparts
    have hnext := Path.isName_concat.2 ⟨hdone, hname⟩
    have hne' : Path.ofParts (done ++ [name] ++ parts) ≠ q := by
      rwa [List.append_assoc, List.singleton_append]
    rw [walk_cons_eq_ok hdone hname, walk_cons_eq_ok hdone hname, ih hnext hparts hne']
    refine and_congr_right fun _ => and_congr_right fun _ => and_congr_left fun hwalk => ?_
    refine or_congr_right ?_
    show ((d.files.set q contents).get? _).isSome = true ↔ (d.files.get? _).isSome = true
    rw [Table.get?_set, if_neg]
    -- the way goes on behind the name, so that it leads through a folder
    intro he
    cases parts with
    | nil => exact hne' (by rw [List.append_nil, he])
    | cons next parts =>
      rw [walk_cons_eq_ok hnext (hparts next (List.mem_cons_self ..)), ← he, hq] at hwalk
      cases hwalk.1

/-- The path can be looked for at all. -/
def Allowed (p : Text) : Prop := Char.ofNat 0 ∉ p ∧ Text.byteLength p < pathLimit

theorem locate_eq_ok {p q : Text} {parts : List Text} (hp : Path.isRooted p = true)
    (hparts : Text.splitAt '/' p = [] :: parts) :
    d.locate p = .ok q ↔
      Allowed p ∧ d.isFolder (Path.ofParts []) = true ∧ d.walk (Path.ofParts []) parts = .ok q := by
  obtain ⟨t, rfl⟩ := Path.isRooted_iff.1 hp
  unfold locate
  rw [if_neg (List.cons_ne_nil _ _), if_pos hp, hparts]
  by_cases hinvalid : Char.ofNat 0 ∈ '/' :: t
  · rw [if_pos hinvalid]
    exact ⟨nofun, fun h => absurd hinvalid h.1.1⟩
  · rw [if_neg hinvalid]
    by_cases hlong : pathLimit ≤ Text.byteLength ('/' :: t)
    · rw [if_pos hlong]
      exact ⟨nofun, fun h => absurd h.1.2 (Nat.not_lt.2 hlong)⟩
    · rw [if_neg hlong]
      have hallowed : Allowed ('/' :: t) := ⟨hinvalid, Nat.lt_of_not_le hlong⟩
      cases hroot : d.isFolder ['/'] with
      | false =>
        simp [walk, hroot, Path.ofParts, Text.join]
      | true =>
        rw [walk_cons_nil hroot]
        exact ⟨fun h => ⟨hallowed, hroot, h⟩, fun h => h.2.2⟩

/-- A full path leads to itself, or nowhere. -/
theorem locate_ofParts {parts : List Text} (h : ∀ part ∈ parts, Path.IsName part) {q : Text} :
    d.locate (Path.ofParts parts) = .ok q ↔
      Allowed (Path.ofParts parts) ∧ d.isFolder (Path.ofParts []) = true ∧
        d.walk (Path.ofParts []) parts = .ok q := by
  rw [locate_eq_ok rfl (Path.splitAt_ofParts h)]
  refine and_congr_right fun _ => and_congr_right fun hroot => ?_
  split
  · rename_i hparts
    rw [hparts, walk_cons_nil hroot]
  · exact Iff.rfl

theorem read_eq_ok {parts : List Text} (h : ∀ part ∈ parts, Path.IsName part) {contents : Text} :
    d.read (Path.ofParts parts) = .ok contents ↔
      Allowed (Path.ofParts parts) ∧ d.isFolder (Path.ofParts []) = true ∧
        d.walk (Path.ofParts []) parts = .ok (Path.ofParts parts) ∧
        d.file? (Path.ofParts parts) = some contents := by
  unfold read
  cases hlocate : d.locate (Path.ofParts parts) with
  | error e =>
    refine ⟨nofun, ?_⟩
    rintro ⟨hallowed, hroot, hwalk, -⟩
    rw [(locate_ofParts h).2 ⟨hallowed, hroot, hwalk⟩] at hlocate
    cases hlocate
  | ok q =>
    obtain ⟨hallowed, hroot, hwalk⟩ := (locate_ofParts h).1 hlocate
    have hq : q = Path.ofParts parts := eq_of_walk_ok (by simp) h hwalk
    rw [hq] at hwalk ⊢
    dsimp only
    cases hfile : d.file? (Path.ofParts parts) with
    | none => simp
    | some c => simp [hallowed, hroot, hwalk]

/-! ## Writing -/

/-- A temporary name is the name with the mark somewhere in it, maybe in place of a star. -/
theorem exists_temporaryName (mark name : Text) :
    ∃ head tail, temporaryName mark name = head ++ mark ++ tail ∧
      (name = head ++ tail ∨ name = head ++ '*' :: tail) := by
  unfold temporaryName
  split
  · rename_i hstar
    have hsplit : name.reverse.takeWhile (· ≠ '*') ++ name.reverse.dropWhile (· ≠ '*') =
        name.reverse := List.takeWhile_append_dropWhile
    cases hrest : name.reverse.dropWhile (· ≠ '*') with
    | nil =>
      -- then there would be no star at all
      rw [List.dropWhile_eq_nil_iff] at hrest
      exact absurd (hrest '*' (List.mem_reverse.2 hstar)) (by simp)
    | cons c rest =>
      have hc : c = '*' := by
        have hhead := List.head?_dropWhile_not (fun c : Char => decide (c ≠ '*')) name.reverse
        rw [hrest] at hhead
        simpa using hhead
      refine ⟨rest.reverse, (name.reverse.takeWhile (· ≠ '*')).reverse, ?_, .inr ?_⟩
      · simp only [Text.splitWhile, hrest]
        rfl
      · have hname := congrArg List.reverse hsplit
        rw [hrest, hc, List.reverse_append, List.reverse_cons, List.reverse_reverse,
          List.append_assoc] at hname
        exact hname.symm
  · exact ⟨name, [], by simp, .inl (by simp)⟩

theorem folderFor_ok {p place : Text} (h : d.folderFor p = .ok place) :
    Allowed p ∧ d.locate (Path.split p).1 = .ok place ∧ d.isFolder place = true ∧
      Text.byteLength (Path.split p).2 ≤ partLimit := by
  unfold folderFor at h
  by_cases hinvalid : Char.ofNat 0 ∈ p
  · rw [if_pos hinvalid] at h
    cases h
  rw [if_neg hinvalid] at h
  by_cases hlong : pathLimit ≤ Text.byteLength p
  · rw [if_pos hlong] at h
    cases h
  rw [if_neg hlong] at h
  cases hlocate : d.locate (Path.split p).1 with
  | error e =>
    simp only [hlocate] at h
    cases h
  | ok q =>
    simp only [hlocate] at h
    dsimp only [bind, Except.bind] at h
    by_cases hfolder : d.isFolder q = true
    · rw [if_neg (by simp [hfolder])] at h
      by_cases hname : partLimit < Text.byteLength (Path.split p).2
      · rw [if_pos hname] at h
        cases h
      · rw [if_neg hname] at h
        cases h
        exact ⟨⟨hinvalid, Nat.lt_of_not_le hlong⟩, rfl, hfolder, Nat.le_of_not_lt hname⟩
    · rw [if_pos (by simp [hfolder])] at h
      cases h

/-- A temporary name has all characters of the name but for a star, zeros besides, and no fewer
bytes. -/
theorem temporaryName_zeros (name : Text) :
    (∀ c ∈ name, c ≠ '*' → c ∈ temporaryName (List.replicate markLength '0') name) ∧
      (∀ c ∈ temporaryName (List.replicate markLength '0') name, c ∈ name ∨ c = '0') ∧
      Text.byteLength name ≤
        Text.byteLength (temporaryName (List.replicate markLength '0') name) := by
  obtain ⟨head, tail, htemporary, hname⟩ :=
    exists_temporaryName (List.replicate markLength '0') name
  have hmark : Text.byteLength (List.replicate markLength '0') = 10 := by decide
  have hstar : Text.byteLength ('*' :: tail) = 1 + Text.byteLength tail := rfl
  rw [htemporary]
  refine ⟨?_, ?_, ?_⟩
  · intro c hc hne
    rcases hname with rfl | rfl <;> simp_all <;> tauto
  · intro c hc
    rcases hname with rfl | rfl <;> simp_all <;> tauto
  · rcases hname with rfl | rfl <;> simp only [Text.byteLength_append, hmark, hstar] <;> omega

theorem slash_not_mem_temporaryName {name : Text} (h : '/' ∉ name) :
    '/' ∉ temporaryName (List.replicate markLength '0') name := by
  intro hmem
  rcases (temporaryName_zeros name).2.1 _ hmem with hmem | he
  · exact h hmem
  · exact absurd he (by decide)

/-- Where a file can be made under its temporary name, it can be looked for. -/
theorem Allowed.of_temporaryName {t name : Text}
    (h : Allowed (t ++ '/' :: temporaryName (List.replicate markLength '0') name)) :
    Allowed (t ++ '/' :: name) := by
  obtain ⟨hchars, -, hle⟩ := temporaryName_zeros name
  obtain ⟨hzero, hbytes⟩ := h
  have hslash : ∀ s, Text.byteLength ('/' :: s) = 1 + Text.byteLength s := fun _ => rfl
  rw [Text.byteLength_append, hslash] at hbytes
  constructor
  · intro hmem
    apply hzero
    rcases List.mem_append.1 hmem with hmem | hmem
    · exact List.mem_append_left _ hmem
    · apply List.mem_append_right
      rcases List.mem_cons.1 hmem with he | hmem
      · exact absurd he (by decide)
      · exact List.mem_cons_of_mem _ (hchars _ hmem (by decide))
  · rw [Text.byteLength_append, hslash]
    omega

/-- What writing a file does, if it succeeds. -/
theorem write_ok {parts : List Text} {name contents : Text}
    (hparts : ∀ part ∈ parts, Path.IsName part) (hname : Path.IsName name)
    (h : d.write (Path.ofParts (parts ++ [name])) contents = .ok d') :
    Allowed (Path.ofParts (parts ++ [name])) ∧ d.isFolder (Path.ofParts []) = true ∧
      d.walk (Path.ofParts []) parts = .ok (Path.ofParts parts) ∧
      d.isFolder (Path.ofParts parts) = true ∧ Text.byteLength name ≤ partLimit ∧
      d.isFolder (Path.ofParts (parts ++ [name])) = false ∧
      d' = { d with files := d.files.set (Path.ofParts (parts ++ [name])) contents } := by
  obtain ⟨t, hpath, hfolders, hrooted⟩ := Path.exists_split_ofParts hparts name
  unfold write at h
  rw [hpath, Path.split_append hname.slash, ← hpath] at h
  dsimp only at h
  rw [List.append_assoc, List.singleton_append] at h
  cases hplace : d.folderFor (t ++ '/' :: temporaryName (List.replicate markLength '0') name) with
  | error e =>
    rw [hplace] at h
    cases h
  | ok place =>
    rw [hplace] at h
    obtain ⟨hallowed, hlocate, hfolder, hbytes⟩ := folderFor_ok hplace
    rw [Path.split_append (slash_not_mem_temporaryName hname.slash)] at hlocate hbytes
    have hsplit : Text.splitAt '/' (t ++ ['/']) = [] :: (parts ++ [[]]) := by
      rw [Text.splitAt_append_sep, hfolders]
      rfl
    obtain ⟨-, hroot, hwalk⟩ := (locate_eq_ok hrooted hsplit).1 hlocate
    have hwalk := walk_concat_nil hwalk
    have hreached : place = Path.ofParts parts := eq_of_walk_ok (by simp) hparts hwalk
    rw [hreached] at h hfolder hwalk
    dsimp only at h
    rw [Path.join_ofParts hparts hname] at h
    split at h
    · cases h
    · rename_i hnew
      cases h
      have hle := (temporaryName_zeros name).2.2
      exact ⟨hpath ▸ hallowed.of_temporaryName, hroot, hwalk, hfolder, Nat.le_trans hle hbytes,
        by simpa using hnew, rfl⟩

/-- The root is no file. -/
theorem write_root {contents : Text} : d.write (Path.ofParts []) contents ≠ .ok d' := by
  intro h
  have hsplit : Path.split (Path.ofParts []) = (Path.ofParts [], []) := rfl
  unfold write at h
  rw [hsplit] at h
  dsimp only at h
  cases hplace : d.folderFor (Path.ofParts [] ++
      temporaryName (List.replicate markLength '0') []) with
  | error e =>
    rw [hplace] at h
    cases h
  | ok place =>
    rw [hplace] at h
    obtain ⟨-, hlocate, hfolder, -⟩ := folderFor_ok hplace
    have hreached : place = Path.ofParts [] :=
      eq_of_walk_ok (by simp) (by simp) ((locate_ofParts (by simp)).1 hlocate).2.2
    rw [hreached] at h hfolder
    dsimp only at h
    have hjoin : Path.join [Path.ofParts [], []] = Path.ofParts [] := by decide
    rw [hjoin, if_pos hfolder] at h
    cases h

theorem exists_name_of_write {p contents : Text} (hp : Path.IsFull p)
    (h : d.write p contents = .ok d') :
    ∃ parts name, (∀ part ∈ parts, Path.IsName part) ∧ Path.IsName name ∧
      p = Path.ofParts (parts ++ [name]) := by
  obtain ⟨parts, hparts, rfl⟩ := hp
  rcases List.eq_nil_or_concat parts with rfl | ⟨parts, name, rfl⟩
  · exact absurd h write_root
  · rw [List.concat_eq_append] at hparts ⊢
    obtain ⟨hfolders, hname⟩ := Path.isName_concat.1 hparts
    exact ⟨parts, name, hfolders, hname, rfl⟩

/-- A file that was written is there. -/
theorem read_write_self {p contents : Text} (hp : Path.IsFull p)
    (h : d.write p contents = .ok d') : d'.read p = .ok contents := by
  obtain ⟨parts, name, hparts, hname, rfl⟩ := exists_name_of_write hp h
  obtain ⟨hallowed, hroot, hwalk, hfolder, hbytes, hnew, rfl⟩ := write_ok hparts hname h
  have hfile : file? { d with files := d.files.set (Path.ofParts (parts ++ [name])) contents }
      (Path.ofParts (parts ++ [name])) = some contents := by
    rw [file?, Table.get?_set, if_pos rfl]
  -- the folder is not the file, so that the way to it is the same as before
  have hway : walk { d with files := d.files.set (Path.ofParts (parts ++ [name])) contents }
      (Path.ofParts []) parts = .ok (Path.ofParts parts) := by
    refine (walk_set hnew (List.forall_mem_nil _) hparts ?_).2 hwalk
    intro heq
    rw [List.nil_append] at heq
    rw [heq, hnew] at hfolder
    cases hfolder
  refine (read_eq_ok (Path.isName_concat.2 ⟨hparts, hname⟩)).2 ⟨hallowed, hroot, ?_, hfile⟩
  rw [walk_append, hway]
  exact (walk_cons_eq_ok hparts hname).2 ⟨hfolder, hbytes, .inr (by rw [hfile]; rfl), rfl⟩

/-- Of the other files at full paths, writing changes none. -/
theorem read_write_of_ne {p q contents c : Text} (hp : Path.IsFull p) (hq : Path.IsFull q)
    (h : d.write p contents = .ok d') (hne : q ≠ p) : d'.read q = .ok c ↔ d.read q = .ok c := by
  obtain ⟨parts, name, hparts, hname, rfl⟩ := exists_name_of_write hp h
  obtain ⟨others, hothers, rfl⟩ := hq
  obtain ⟨-, -, -, -, -, hnew, rfl⟩ := write_ok hparts hname h
  have hway : walk { d with files := d.files.set (Path.ofParts (parts ++ [name])) contents }
      (Path.ofParts []) others = .ok (Path.ofParts others) ↔
        d.walk (Path.ofParts []) others = .ok (Path.ofParts others) :=
    walk_set hnew (by simp) hothers hne
  rw [read_eq_ok hothers, read_eq_ok hothers, hway, file?, Table.get?_set, if_neg (Ne.symm hne)]
  exact Iff.rfl

/-- What a way to write files promises of those at full paths: a file that was written has the
contents that it was given, and of the others none has changed. -/
structure Writing.Replaces (writing : Writing) : Prop where
  written : ∀ {d d' : Disk} {p contents : Text}, Path.IsFull p →
    writing d p contents = .ok d' → d'.read p = .ok contents
  others : ∀ {d d' : Disk} {p q contents c : Text}, Path.IsFull p → Path.IsFull q →
    writing d p contents = .ok d' → q ≠ p → (d'.read q = .ok c ↔ d.read q = .ok c)

/-- Writing through a temporary file keeps the promise. -/
theorem replaces_write : Writing.Replaces write where
  written := read_write_self
  others := read_write_of_ne

end Disk
end Offside
