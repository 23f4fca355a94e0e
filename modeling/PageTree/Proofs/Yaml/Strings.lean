import PageTree.Json.Printer
import PageTree.Proofs.Text
import PageTree.Yaml.Style.Quoted

/-!
# JSON strings as quoted scalars

A string in JSON stands between double marks, and so does a quoted scalar in YAML. What they do with a text is
not the same: YAML folds lines and drops the blanks around their ends, and it has escapes of its own. For a
text that is made of the code points U+0020 to U+007E there is no difference (`Quoted.read_written`): its JSON
form has no line ends, and the only escapes in it are those of the mark and the backslash.
-/

set_option autoImplicit false

namespace PageTree

/-- The code points of ASCII that can be seen, and the space. -/
def CodePoint.isTypeable (c : CodePoint) : Bool := 0x20 ≤ c.val && c.val ≤ 0x7E

/-- Whether all code points of a text can be typed. -/
def Text.isTypeable (s : Text) : Bool := s.all CodePoint.isTypeable

namespace Text

/-- A text can be typed just if its first code point and the others can. -/
theorem isTypeable_cons (c : CodePoint) (s : Text) :
    isTypeable (c :: s) = (c.isTypeable && isTypeable s) :=
  List.all_cons

/-- Two texts, one behind the other, can be typed just if each of them can. -/
theorem isTypeable_append (s t : Text) : isTypeable (s ++ t) = (isTypeable s && isTypeable t) :=
  List.all_append

/-- Such a text holds no surrogate. -/
theorem hasSurrogate_of_isTypeable {s : Text} (h : isTypeable s = true) : s.hasSurrogate = false := by
  rw [hasSurrogate, List.any_eq_false]
  intro c hc
  have htypeable := List.all_eq_true.mp h c hc
  simp only [CodePoint.isTypeable, Bool.and_eq_true, decide_eq_true_eq] at htypeable
  simp only [CodePoint.isSurrogate, Bool.and_eq_true, decide_eq_true_eq]
  omega

/-- It stands on one line, so it has no line ends to be unified. -/
theorem unifyLines_of_isTypeable {s : Text} (h : isTypeable s = true) : unifyLines s = s := by
  have hreturn : ¬ CodePoint.isTypeable '\r' = true := by decide
  fun_induction unifyLines s with
  | case1 => rfl
  | case2 => exact absurd h hreturn
  | case3 r _ => exact absurd (List.all_eq_true.mp h _ List.mem_cons_self) hreturn
  | case4 y r _ _ => exact absurd (List.all_eq_true.mp h _ List.mem_cons_self) hreturn
  | case5 c rest _ ih =>
      rw [isTypeable_cons, Bool.and_eq_true] at h
      rw [ih h.2]

end Text

/-- The JSON form of such a code point: the mark and the backslash get a backslash, the others stand. -/
theorem Json.writePoint_cases {c : CodePoint} (h : c.isTypeable = true) :
    ((c = '"' ∨ c = '\\') ∧ Json.writePoint c = [CodePoint.ofChar '\\', c]) ∨
      (c ≠ '"' ∧ c ≠ '\\' ∧ Json.writePoint c = [c]) := by
  simp only [CodePoint.isTypeable, Bool.and_eq_true, decide_eq_true_eq] at h
  unfold Json.writePoint
  by_cases hmark : c = '"'
  · subst hmark
    exact .inl ⟨.inl rfl, rfl⟩
  by_cases hslash : c = '\\'
  · subst hslash
    exact .inl ⟨.inr rfl, rfl⟩
  have hval (d : Char) (hd : d.toNat < 0x20) : c ≠ CodePoint.ofChar d := by
    rintro rfl
    exact absurd h.1 (by simpa [CodePoint.ofChar] using hd)
  refine .inr ⟨hmark, hslash, ?_⟩
  rw [if_neg hmark, if_neg hslash, if_neg (by omega), if_neg (by omega), if_neg (hval '\n' (by decide)),
    if_neg (hval '\r' (by decide)), if_neg (hval '\t' (by decide)), if_neg (by omega)]

/-- A written text with something behind it begins with a mark and has the other before what is behind. -/
theorem Json.writeText_append (s rest : Text) :
    Json.writeText s ++ rest =
      CodePoint.ofChar '"' :: (s.flatMap Json.writePoint ++ CodePoint.ofChar '"' :: rest) := by
  simp [Json.writeText, text]

/-- A written text is longer by two marks than what stands between them. -/
theorem Json.length_writeText (s : Text) :
    (Json.writeText s).length = 1 + ((s.flatMap Json.writePoint).length + 1) := by
  rw [Json.writeText, List.length_append, List.length_append, Nat.add_assoc]
  rfl

/-- The JSON form of a text that can be typed can be typed. -/
theorem Json.isTypeable_writeText {s : Text} (h : Text.isTypeable s = true) :
    Text.isTypeable (Json.writeText s) = true := by
  have hpoints : Text.isTypeable (s.flatMap Json.writePoint) = true := by
    rw [Text.isTypeable, List.all_flatMap, List.all_eq_true]
    intro c hc
    have htypeable := List.all_eq_true.mp h c hc
    rcases Json.writePoint_cases htypeable with ⟨-, hwrite⟩ | ⟨-, -, hwrite⟩
    · rw [hwrite, List.all_cons, List.all_cons, htypeable]
      rfl
    · rw [hwrite, List.all_cons, htypeable]
      rfl
  rw [Json.writeText, Text.isTypeable_append, Text.isTypeable_append, hpoints]
  rfl

namespace Yaml

/-- Such a code point ends no line. -/
theorem isBreak_of_isTypeable {c : CodePoint} (h : c.isTypeable = true) : isBreak c = false := by
  simp only [CodePoint.isTypeable, Bool.and_eq_true, decide_eq_true_eq] at h
  unfold isBreak
  simp only [Bool.or_eq_false_iff, beq_eq_false_iff_ne]
  omega

/-- A place on the same line, some code points further. -/
structure Mark.IsAhead (n : Nat) (m m' : Mark) : Prop where
  line : m'.line = m.line
  index : m'.index = m.index + n

/-- A place ahead of one that is ahead is ahead by both distances. -/
theorem Mark.IsAhead.trans {a b : Nat} {m m' m'' : Mark} (h : Mark.IsAhead a m m')
    (h' : Mark.IsAhead b m' m'') : Mark.IsAhead (a + b) m m'' :=
  ⟨h'.line.trans h.line, by rw [h'.index, h.index, Nat.add_assoc]⟩

/-- A code point that is no line end leads one place ahead. -/
theorem Mark.isAhead_pass {c : CodePoint} (h : isBreak c = false) (m : Mark) :
    Mark.IsAhead 1 m (m.pass c) := by
  unfold Mark.pass
  rw [h]
  simp only [Bool.false_eq_true, if_false]
  split <;> exact ⟨rfl, rfl⟩

namespace Quoted

variable {c : CodePoint} {soFar : Text} {place : Place} {m : Mark}

/-- The places inside a line. -/
def Place.IsInLine : Place → Prop
  | .inside => True
  | .blanks _ => True
  | _ => False

/-- A place inside a line is not the one at the closing mark. -/
theorem Place.IsInLine.isMark (hplace : place.IsInLine) : place.isMark = false := by
  cases place with
  | inside => rfl
  | blanks passed => rfl
  | _ => cases hplace

/-- After blanks a code point that is none does what it does anywhere, with the blanks kept. -/
theorem step_of_isInLine (hplace : place.IsInLine) (hblank : isBlank c = false)
    (hbreak : isBreak c = false) :
    step true soFar place c = .ok (inside true (place.join soFar) c) := by
  cases place with
  | inside => rfl
  | blanks passed => simp [step, hblank, hbreak]
  | _ => cases hplace

/-- A step inside a line is followed by reading on from where it leads. -/
theorem read_go {next : Text} {place' : Place} (hstep : step true soFar place c = .ok (.go next place'))
    (hbreak : isBreak c = false) (rest : Text) :
    read true soFar place m (c :: rest) = read true next place' (m.pass c) rest := by
  rw [read, hstep]
  simp [hbreak]

/-- A code point that stands for itself is kept, whether it is a blank or not. -/
theorem step_ordinary (hplace : place.IsInLine) (hc : c.isTypeable = true) (hmark : c ≠ '"')
    (hslash : c ≠ '\\') (soFar : Text) :
    ∃ next place', step true soFar place c = .ok (.go next place') ∧ place'.IsInLine ∧
      place'.join next = c :: place.join soFar := by
  have hbreak := isBreak_of_isTypeable hc
  cases hblank : isBlank c with
  | true =>
      cases place with
      | inside => exact ⟨soFar, .blanks [c], by simp [step, inside, hblank], trivial, rfl⟩
      | blanks passed => exact ⟨soFar, .blanks (c :: passed), by simp [step, hblank], trivial, rfl⟩
      | _ => cases hplace
  | false =>
      refine ⟨c :: place.join soFar, .inside, ?_, trivial, rfl⟩
      rw [step_of_isInLine hplace hblank hbreak]
      simp [inside, hblank, hbreak, hmark, hslash]

/-- The JSON form of a code point is read as the code point. -/
theorem read_writePoint (hplace : place.IsInLine) (hc : c.isTypeable = true) (soFar : Text) (m : Mark)
    (more : Text) :
    ∃ next place' m', place'.IsInLine ∧ place'.join next = c :: place.join soFar ∧
      Mark.IsAhead (Json.writePoint c).length m m' ∧
      read true soFar place m (Json.writePoint c ++ more) = read true next place' m' more := by
  have hbreak := isBreak_of_isTypeable hc
  rcases Json.writePoint_cases hc with ⟨hspecial, hwrite⟩ | ⟨hmark, hslash, hwrite⟩
  · have hescape : step true soFar place '\\' = .ok (.go (place.join soFar) .escape) :=
      step_of_isInLine hplace rfl rfl
    have hescaped : step true (place.join soFar) .escape c = .ok (.go (c :: place.join soFar) .inside) := by
      rcases hspecial with rfl | rfl <;> rfl
    refine ⟨c :: place.join soFar, .inside, (m.pass '\\').pass c, trivial, rfl, ?_, ?_⟩
    · rw [hwrite]
      exact (Mark.isAhead_pass rfl m).trans (Mark.isAhead_pass hbreak _)
    · rw [hwrite, List.cons_append, List.singleton_append, read_go hescape rfl, read_go hescaped hbreak]
  · obtain ⟨next, place', hstep, hinLine, hjoin⟩ := step_ordinary hplace hc hmark hslash soFar
    refine ⟨next, place', m.pass c, hinLine, hjoin, ?_, ?_⟩
    · rw [hwrite]
      exact Mark.isAhead_pass hbreak m
    · rw [hwrite, List.singleton_append, read_go hstep hbreak]

/-- A text that can be typed is read back from its JSON form, up to the mark at its end. -/
theorem read_written {s : Text} (hs : Text.isTypeable s = true) (more : Text) (soFar : Text) (place : Place)
    (hplace : place.IsInLine) (m : Mark) :
    ∃ m', Mark.IsAhead ((s.flatMap Json.writePoint).length + 1) m m' ∧
      read true soFar place m (s.flatMap Json.writePoint ++ CodePoint.ofChar '"' :: more) =
        .ok ((place.join soFar).reverse ++ s, ⟨m', more⟩) := by
  -- On the text, for every place inside a line: blanks are kept until it is known what follows them.
  induction s generalizing soFar place m with
  | nil =>
      have hstep : step true soFar place '"' = .ok .stop := step_of_isInLine hplace rfl rfl
      have hmark := hplace.isMark
      refine ⟨m.pass '"', Mark.isAhead_pass rfl m, ?_⟩
      rw [List.flatMap_nil, List.nil_append, read, hstep]
      simp [hmark]
  | cons c rest ih =>
      obtain ⟨hc, hrest⟩ := Bool.and_eq_true_iff.mp (Text.isTypeable_cons c rest ▸ hs)
      obtain ⟨next, place', m', hinLine, hjoin, hpassed, hpoint⟩ := read_writePoint hplace hc soFar m
        (rest.flatMap Json.writePoint ++ CodePoint.ofChar '"' :: more)
      obtain ⟨m'', hahead, hread⟩ := ih hrest next place' hinLine m'
      refine ⟨m'', ?_, ?_⟩
      · rw [List.flatMap_cons, List.length_append, Nat.add_assoc]
        exact hpassed.trans hahead
      · rw [List.flatMap_cons, List.append_assoc, hpoint, hread, hjoin]
        simp

end Quoted

end Yaml

end PageTree
