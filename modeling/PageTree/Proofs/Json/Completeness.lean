import PageTree.Proofs.Json.Grammar
import PageTree.Proofs.Text
import PageTree.Proofs.Value

/-!
# What is spelled by the grammar is read

`Spells.read?_eq` is the main statement: the reader takes every text that the grammar has for a value, and
what it reads is that value.

The reader is a machine, so the statement is about what a spelled value does to a state. A number has no
end of its own: it ends with the blank, the comma or the bracket behind it. `Ends` is what the states after
a value share, and it is all that the rules around the value rely on. `Expects` is the same for the states
before a value.
-/

set_option autoImplicit false

namespace PageTree.Json

variable {d : Dialect} {frames : List Frame}

/-! ## Runs -/

/-- A run over two texts, one behind the other, is a run over the first and from there over the second. -/
theorem run_append (d : Dialect) (s : State) (a b : Text) :
    run d s (a ++ b) = (run d s a).bind fun next => run d next b := by
  induction a generalizing s with
  | nil => rfl
  | cons c rest ih =>
      simp only [List.cons_append, run]
      cases step d s c with
      | none => rfl
      | some next => exact ih next

/-- A run that goes well is continued from where it ends. -/
theorem run_append_of_run {d : Dialect} {s next : State} {a : Text} (h : run d s a = some next)
    (b : Text) : run d s (a ++ b) = run d next b := by
  rw [run_append, h]
  rfl

/-- A run over one code point is one step. -/
theorem run_singleton (d : Dialect) (s : State) (c : CodePoint) : run d s [c] = step d s c := by
  simp only [run]
  cases step d s c <;> rfl

/-- A run that begins with a step is continued from where the step leads. -/
theorem run_cons_of_step {d : Dialect} {s next : State} {c : CodePoint} (h : step d s c = some next)
    (rest : Text) : run d s (c :: rest) = run d next rest := by
  simp only [run, h]

/-- A state that blanks leave as it is. -/
theorem run_blanks {s : State} {blanks : Text} (h : ∀ c, isSpace c = true → step d s c = some s)
    (hblanks : IsBlank blanks) : run d s blanks = some s := by
  induction blanks with
  | nil => rfl
  | cons c rest ih =>
      obtain ⟨hc, hrest⟩ := List.forall_mem_cons.mp hblanks
      rw [run_cons_of_step (h c hc), ih hrest]

/-! ## Before and after a value -/

/-- A state in which a value can begin inside some frames. A closing bracket may mean something of its own
there, but no value begins with one. -/
structure Expects (d : Dialect) (frames : List Frame) (s : State) : Prop where
  blank : ∀ c, isSpace c = true → step d s c = some s
  begins : ∀ c, isSpace c = false → c ≠ CodePoint.ofChar ']' → step d s c = beginValue d frames c

/-- Where a value is due, one can begin. -/
theorem expects_value (d : Dialect) (frames : List Frame) : Expects d frames ⟨frames, .value⟩ where
  blank c hc := by simp [step, hc]
  begins c hc _ := by simp [step, hc]

/-- Behind an opening bracket, a value can begin. -/
theorem expects_firstItem (d : Dialect) (frames : List Frame) :
    Expects d frames ⟨frames, .firstItem⟩ where
  blank c hc := by simp [step, hc]
  begins c hc hbracket := by simp [step, hc, hbracket]

/-- A state in which a value has been read inside some frames: the text may end here if nothing is open,
and blanks, a comma and a closing bracket do what they do behind the value. -/
structure Ends (d : Dialect) (frames : List Frame) (v : Value) (s : State) : Prop where
  finish : frames = [] → finish d s = some v
  blank : ∀ c, isSpace c = true → step d s c = some ⟨frames, .after v⟩
  step : ∀ c : Char, c = ',' ∨ c = ']' ∨ c = '}' → step d s c = afterValue v c frames

/-- Right behind a value with an end of its own, the value has been read. -/
theorem ends_after (d : Dialect) (frames : List Frame) (v : Value) :
    Ends d frames v ⟨frames, .after v⟩ where
  finish h := by subst h; rfl
  blank c hc := by simp [Json.step, stepAfter, hc]
  step c h := by rcases h with rfl | rfl | rfl <;> rfl

/-- What is read from a state is a value inside some frames. -/
def Reaches (d : Dialect) (frames : List Frame) (v : Value) (s : State) (t : Text) : Prop :=
  ∃ next, run d s t = some next ∧ Ends d frames v next

/-- A run that ends right behind a value has reached its end. -/
theorem reaches_after {s : State} {t : Text} {v : Value} (h : run d s t = some ⟨frames, .after v⟩) :
    Reaches d frames v s t := ⟨_, h, ends_after d frames v⟩

/-- Blanks before a value and behind it make no difference. -/
theorem Reaches.blanks {s : State} {before t behind : Text} {v : Value} (hs : Expects d frames s)
    (hbefore : IsBlank before) (h : Reaches d frames v s t) (hbehind : IsBlank behind) :
    Reaches d frames v s (before ++ t ++ behind) := by
  obtain ⟨next, hrun, hends⟩ := h
  have hvalue : run d s (before ++ t) = some next := by
    rw [run_append_of_run (run_blanks hs.blank hbefore), hrun]
  cases behind with
  | nil =>
      rw [List.append_nil]
      exact ⟨next, hvalue, hends⟩
  | cons c rest =>
      obtain ⟨hc, hrest⟩ := List.forall_mem_cons.mp hbehind
      refine reaches_after ?_
      rw [run_append_of_run hvalue, run_cons_of_step (hends.blank c hc)]
      exact run_blanks (ends_after d frames v).blank hrest

/-! ## Words -/

/-- The letters that are left of a word lead behind its value. -/
theorem run_word (d : Dialect) (frames : List Frame) {rest : Text} (v : Value) (h : rest ≠ []) :
    run d ⟨frames, .word rest v⟩ rest = some ⟨frames, .after v⟩ := by
  induction rest with
  | nil => exact absurd rfl h
  | cons c more ih =>
      cases more with
      | nil => simp [run, step]
      | cons x more =>
          have hstep : step d ⟨frames, .word (c :: x :: more) v⟩ c =
              some ⟨frames, .word (x :: more) v⟩ := by simp [step]
          rw [run_cons_of_step hstep]
          exact ih (by simp)

/-- A spelled word is read as its value. -/
theorem SpellsWord.reaches {s : State} {t : Text} {v : Value} (hs : Expects d frames s)
    (h : SpellsWord d t v) : Reaches d frames v s t := by
  have hword : ∀ (c : Char) (rest : Text), rest ≠ [] → isSpace c = false → c ≠ ']' →
      beginValue d frames c = some ⟨frames, .word rest v⟩ → Reaches d frames v s (c :: rest) := by
    intro c rest hrest hc hbracket hbegin
    apply reaches_after
    rw [run_cons_of_step ((hs.begins c hc (by simpa using hbracket)).trans hbegin)]
    exact run_word d frames v hrest
  obtain ⟨infinite, _, _⟩ := d
  cases h with
  | null => exact hword 'n' (text "ull") (by decide) rfl (by decide) rfl
  | yes => exact hword 't' (text "rue") (by decide) rfl (by decide) rfl
  | no => exact hword 'f' (text "alse") (by decide) rfl (by decide) rfl
  | notNumber h =>
      obtain rfl : infinite = true := h
      exact hword 'N' (text "aN") (by decide) rfl (by decide) rfl
  | infinite h =>
      obtain rfl : infinite = true := h
      exact hword 'I' (text "nfinity") (by decide) rfl (by decide) rfl
  | minusInfinite h =>
      -- The minus begins a number, and only the letter behind it a word.
      obtain rfl : infinite = true := h
      apply reaches_after
      have hminus := hs.begins '-' rfl (by decide)
      exact (run_cons_of_step hminus (text "Infinity")).trans rfl

/-! ## Numbers -/

/-- No digit is a blank. -/
theorem isSpace_of_isDigit {c : CodePoint} (h : c.isDigit = true) : isSpace c = false := by
  have h0 : '0'.toNat = 48 := rfl
  simp only [CodePoint.isDigit, h0, Bool.and_eq_true, decide_eq_true_eq] at h
  simp only [isSpace, Bool.or_eq_false_iff, beq_eq_false_iff_ne]
  omega

/-- A number goes on with every code point that continues the part it is in. -/
theorem step_number {part next : NumberPart} {c : CodePoint} (soFar : Text)
    (h : part.next? c = some next) :
    step d ⟨frames, .number part soFar⟩ c = some ⟨frames, .number next (c :: soFar)⟩ := by
  simp [step, h]

/-- Digits behind a part of a number that digits continue. -/
theorem run_digits {part : NumberPart} {s : Text} (soFar : Text)
    (hpart : ∀ c, c.isDigit = true → part.next? c = some part) (hs : ∀ c ∈ s, c.isDigit = true) :
    run d ⟨frames, .number part soFar⟩ s = some ⟨frames, .number part (s.reverse ++ soFar)⟩ := by
  induction s generalizing soFar with
  | nil => rfl
  | cons c rest ih =>
      obtain ⟨hc, hrest⟩ := List.forall_mem_cons.mp hs
      rw [run_cons_of_step (step_number soFar (hpart c hc)), ih (c :: soFar) hrest]
      simp

/-- Digits behind a part of a number that the first of them ends. -/
theorem IsDigits.run {part next : NumberPart} {s : Text} (h : IsDigits s) (soFar : Text)
    (hpart : ∀ c, c.isDigit = true → part.next? c = some next)
    (hnext : ∀ c, c.isDigit = true → next.next? c = some next) :
    run d ⟨frames, .number part soFar⟩ s = some ⟨frames, .number next (s.reverse ++ soFar)⟩ := by
  obtain ⟨hnonempty, hdigits⟩ := h
  cases s with
  | nil => exact absurd rfl hnonempty
  | cons c rest =>
      obtain ⟨hc, hrest⟩ := List.forall_mem_cons.mp hdigits
      rw [run_cons_of_step (step_number soFar (hpart c hc)), run_digits _ hnext hrest]
      simp

/-- The digits of a whole number are read into a number, which is zero or can go on with digits. -/
theorem IsWhole.run {s : State} {t soFar : Text} (h : IsWhole t)
    (hzero : step d s '0' = some ⟨frames, .number .zero (CodePoint.ofChar '0' :: soFar)⟩)
    (hdigit : ∀ c, c.isDigit = true → c ≠ CodePoint.ofChar '0' →
      step d s c = some ⟨frames, .number .whole (c :: soFar)⟩) :
    ∃ part, (part = .zero ∨ part = .whole) ∧
      run d s t = some ⟨frames, .number part (t.reverse ++ soFar)⟩ := by
  cases h with
  | zero => exact ⟨.zero, .inl rfl, (run_singleton d s '0').trans hzero⟩
  | digits hfirst hne hrest =>
      refine ⟨.whole, .inr rfl, ?_⟩
      rw [run_cons_of_step (hdigit _ hfirst hne), run_digits _ (fun c hc => by simp [NumberPart.next?, hc]) hrest]
      simp

/-- An integer is read into a number, which is zero or can go on with digits. -/
theorem IsInteger.run {s : State} {t : Text} (hs : Expects d frames s) (h : IsInteger t) :
    ∃ part, (part = .zero ∨ part = .whole) ∧
      run d s t = some ⟨frames, .number part t.reverse⟩ := by
  cases h with
  | positive h =>
      have hdigit : ∀ c : CodePoint, c.isDigit = true → c ≠ CodePoint.ofChar '0' →
          step d s c = some ⟨frames, .number .whole [c]⟩ := by
        intro c hc hne
        have hother : ∀ x : Char, (CodePoint.ofChar x).isDigit = false → c ≠ CodePoint.ofChar x :=
          fun x => CodePoint.ne_ofChar_of_isDigit hc
        rw [hs.begins c (isSpace_of_isDigit hc) (hother ']' rfl)]
        simp [beginValue, hc, hne, hother '"' rfl, hother '[' rfl, hother '{' rfl, hother 'n' rfl,
          hother 't' rfl, hother 'f' rfl, hother '-' rfl]
      obtain ⟨part, hpart, hrun⟩ := h.run (hs.begins '0' rfl (by decide)) hdigit
      exact ⟨part, hpart, by simpa using hrun⟩
  | negative h =>
      have hminus := hs.begins '-' rfl (by decide)
      obtain ⟨part, hpart, hrun⟩ := h.run (d := d) (s := ⟨frames, .number .sign [CodePoint.ofChar '-']⟩)
        rfl fun c hc hne => by simp [step, NumberPart.next?, hc, hne]
      refine ⟨part, hpart, ?_⟩
      rw [run_cons_of_step hminus, hrun]
      simp

/-- An integer and a fraction are read into a number whose fraction can go on. -/
theorem IsFraction.run {s : State} {t : Text} (hs : Expects d frames s) (h : IsFraction t) :
    run d s t = some ⟨frames, .number .fraction t.reverse⟩ := by
  cases h with
  | point h ht =>
      obtain ⟨part, hpart, hrun⟩ := h.run hs
      have hpoint : part.next? '.' = some .point := by rcases hpart with rfl | rfl <;> rfl
      have hbegun : ∀ c : CodePoint, c.isDigit = true → NumberPart.point.next? c = some .fraction :=
        fun c hc => by simp [NumberPart.next?, hc]
      have hcontinued : ∀ c : CodePoint, c.isDigit = true →
          NumberPart.fraction.next? c = some .fraction := fun c hc => by simp [NumberPart.next?, hc]
      rw [run_append_of_run hrun, run_cons_of_step (step_number _ hpoint), ht.run _ hbegun hcontinued]
      simp

/-- The parts behind which an exponent may stand. -/
theorem next?_mark {part : NumberPart} {c : CodePoint} (hc : IsMark c)
    (hpart : part = .zero ∨ part = .whole ∨ part = .fraction) : part.next? c = some .exponentMark := by
  rcases hc with rfl | rfl <;> rcases hpart with rfl | rfl | rfl <;> rfl

/-- An exponent is read into a number to which an exponent can be added. -/
theorem IsExponent.run {part : NumberPart} {t : Text} (h : IsExponent t) (soFar : Text)
    (hpart : part = .zero ∨ part = .whole ∨ part = .fraction) :
    run d ⟨frames, .number part soFar⟩ t =
      some ⟨frames, .number .exponent (t.reverse ++ soFar)⟩ := by
  have hcontinued : ∀ c : CodePoint, c.isDigit = true →
      NumberPart.exponent.next? c = some .exponent := fun c hc => by simp [NumberPart.next?, hc]
  cases h with
  | plain hmark h =>
      rw [run_cons_of_step (step_number soFar (next?_mark hmark hpart)),
        h.run _ (fun c hc => by simp [NumberPart.next?, hc]) hcontinued]
      simp
  | @signed c sign digits hmark hsign h =>
      have hnext : NumberPart.exponentMark.next? sign = some .exponentSign := by
        rcases hsign with rfl | rfl <;> rfl
      rw [run_cons_of_step (step_number soFar (next?_mark hmark hpart)),
        run_cons_of_step (step_number _ hnext),
        h.run _ (fun c hc => by simp [NumberPart.next?, hc]) hcontinued]
      simp

/-- The blanks are the space, the tab, the line feed and the carriage return. -/
theorem eq_of_isSpace {c : CodePoint} (h : isSpace c = true) :
    c = CodePoint.ofChar ' ' ∨ c = CodePoint.ofChar '\t' ∨ c = CodePoint.ofChar '\n' ∨
      c = CodePoint.ofChar '\r' := by
  simp only [isSpace, Bool.or_eq_true, beq_iff_eq] at h
  obtain ((h | h) | h) | h := h
  · exact .inl (CodePoint.ext_val h)
  · exact .inr (.inl (CodePoint.ext_val h))
  · exact .inr (.inr (.inl (CodePoint.ext_val h)))
  · exact .inr (.inr (.inr (CodePoint.ext_val h)))

/-- No part of a number is continued by what may stand behind a value. -/
theorem next?_eq_none (part : NumberPart) {c : CodePoint}
    (hc : isSpace c = true ∨ c = CodePoint.ofChar ',' ∨ c = CodePoint.ofChar ']' ∨
      c = CodePoint.ofChar '}') : part.next? c = none := by
  obtain hspace | hclose := hc
  · rcases eq_of_isSpace hspace with rfl | rfl | rfl | rfl <;> cases part <;> rfl
  · rcases hclose with rfl | rfl | rfl <;> cases part <;> rfl

/-- The states in which a number can end are states behind its value. -/
theorem ends_number {part : NumberPart} {t : Text} {v : Value} (frames : List Frame)
    (h : numberOf? d part t = some v) : Ends d frames v ⟨frames, .number part t.reverse⟩ := by
  have hsign : (part == .sign) = false := by
    cases part with
    | sign => cases h
    | _ => rfl
  have hstep : ∀ c : CodePoint, part.next? c = none →
      step d ⟨frames, .number part t.reverse⟩ c = stepAfter frames v c := by
    intro c hnext
    simp [step, hnext, hsign, h]
  constructor
  · rintro rfl
    simp only [finish, List.reverse_reverse, h]
  · intro c hc
    rw [hstep c (next?_eq_none part (.inl hc))]
    simp [stepAfter, hc]
  · intro c hc
    have hspace : isSpace c = false := by rcases hc with rfl | rfl | rfl <;> rfl
    rw [hstep c (next?_eq_none part (.inr (by simpa using hc)))]
    simp [stepAfter, hspace]

/-- The value of an integer is settled by its digits and by the dialect. -/
theorem numberOf?_integer {part : NumberPart} (hpart : part = .zero ∨ part = .whole) (t : Text) :
    numberOf? d part t = if d.keepsLargeIntegers || fits64 (integerOf t) then
      some (.int (integerOf t)) else floatOf? d t := by
  rcases hpart with rfl | rfl <;> rfl

/-- A spelled number is read as its value. -/
theorem SpellsNumber.reaches {s : State} {t : Text} {v : Value} (hs : Expects d frames s)
    (h : SpellsNumber d t v) : Reaches d frames v s t := by
  cases h with
  | integer h hfits =>
      obtain ⟨part, hpart, hrun⟩ := h.run hs
      refine ⟨_, hrun, ends_number frames ?_⟩
      rw [numberOf?_integer hpart, if_pos (by simpa using hfits)]
  | large h hkeeps hlarge hv =>
      obtain ⟨part, hpart, hrun⟩ := h.run hs
      refine ⟨_, hrun, ends_number frames ?_⟩
      rw [numberOf?_integer hpart, if_neg (by simp [hkeeps, hlarge]), hv]
  | fraction h hv => exact ⟨_, h.run hs, ends_number frames hv⟩
  | @exponent mantissa t v h ht hv =>
      obtain ⟨part, hpart, hrun⟩ : ∃ part : NumberPart,
          (part = .zero ∨ part = .whole ∨ part = .fraction) ∧
            run d s mantissa = some ⟨frames, .number part mantissa.reverse⟩ := by
        rcases h with h | h
        · obtain ⟨part, hpart, hrun⟩ := h.run hs
          exact ⟨part, hpart.imp_right .inl, hrun⟩
        · exact ⟨.fraction, .inr (.inr rfl), h.run hs⟩
      refine ⟨⟨frames, .number .exponent (mantissa ++ t).reverse⟩, ?_, ends_number frames hv⟩
      rw [run_append_of_run hrun, ht.run _ hpart, List.reverse_append]

/-! ## Strings -/

/-- Hexadecimal digits are read as their number while an escape lacks more of them. -/
theorem run_hexDigits (d : Dialect) (frames : List Frame) (place : Place) (soFar : Text) {hex : Text}
    {n : Nat} (h : HexDigits hex n) (missing : Nat) :
    run d ⟨frames, .string place soFar (.hex (hex.length + missing + 1) 0)⟩ hex =
      some ⟨frames, .string place soFar (.hex (missing + 1) n)⟩ := by
  induction h generalizing missing with
  | nil => simp [run]
  | @snoc hex n k c h hc ih =>
      have hstart := ih (missing + 1)
      rw [List.length_append, List.length_singleton, Nat.add_right_comm hex.length 1 missing,
        Nat.add_assoc hex.length missing 1, run_append_of_run hstart, run_singleton]
      simp [step, inString, hc]

/-- A numeric escape of four digits adds the code point of its number to the text. -/
theorem run_escape {hex soFar joined : Text} {n : Nat} (h : HexDigits hex n) (hlength : hex.length = 4)
    (place : Place) (hadd : addUnit n soFar = some joined) :
    run d ⟨frames, .string place soFar .outside⟩ (text "\\u" ++ hex) =
      some ⟨frames, .string place joined .outside⟩ := by
  have hstart : run d ⟨frames, .string place soFar .outside⟩ (text "\\u") =
      some ⟨frames, .string place soFar (.hex 4 0)⟩ := rfl
  rw [run_append_of_run hstart]
  cases h with
  | nil => cases hlength
  | @snoc front n k c h hc =>
      have hfront : front.length = 3 := by simpa using hlength
      have hrun := run_hexDigits d frames place soFar h 0
      rw [hfront] at hrun
      rw [run_append_of_run hrun, run_singleton]
      simp [step, inString, hc, hadd]

/-- A code point behind no first half of a pair, or not a second half itself, stands on its own. -/
theorem addUnit_single {c : CodePoint} {soFar : Text}
    (h : ∀ high rest, soFar = high :: rest → high.isHighSurrogate = true → c.isLowSurrogate = false) :
    addUnit c.val soFar = some (c :: soFar) := by
  cases soFar with
  | nil => simp [addUnit, CodePoint.ofNat?_val]
  | cons high rest =>
      have hnot : ¬ (high.isHighSurrogate = true ∧ c.isLowSurrogate = true) := by
        rintro ⟨hhigh, hlow⟩
        rw [h high rest rfl hhigh] at hlow
        cases hlow
      simp [addUnit, CodePoint.ofNat?_val, hnot]

/-- A low surrogate behind a high one makes one code point out of both. -/
theorem addUnit_pair {high low c : CodePoint} (rest : Text) (hhigh : high.isHighSurrogate = true)
    (hlow : low.isLowSurrogate = true)
    (hc : c.val = 0x10000 + (high.val - 0xD800) * 0x400 + (low.val - 0xDC00)) :
    addUnit low.val (high :: rest) = some (c :: rest) := by
  simp [addUnit, CodePoint.ofNat?_val, hhigh, hlow, ← hc]

/-- What is quoted is read as the text it stands for. -/
theorem Quoted.run {s t : Text} (h : Quoted s t) (place : Place) :
    run d ⟨frames, .string place [] .outside⟩ s = some ⟨frames, .string place t.reverse .outside⟩ := by
  induction h with
  | nil => rfl
  | plain h hmark hbackslash hcontrol ih =>
      rw [run_append_of_run ih, run_singleton]
      simp [step, inString, hmark, hbackslash, Nat.not_lt.mpr hcontrol]
  | @letter s t c e h he ih =>
      have hunicode : c ≠ CodePoint.ofChar 'u' := by
        rintro rfl
        cases he
      have hbackslash : step d ⟨frames, .string place t.reverse .outside⟩ '\\' =
          some ⟨frames, .string place t.reverse .backslash⟩ := rfl
      rw [run_append_of_run ih, run_cons_of_step hbackslash, run_singleton]
      simp [step, inString, hunicode, he]
  | @unit s t hex c h hhex hlength hsingle ih =>
      rw [run_append_of_run ih, run_escape hhex hlength place, List.reverse_append]
      apply addUnit_single
      intro high rest hsoFar
      exact hsingle rest.reverse high (by simpa using congrArg List.reverse hsoFar)
  | @pair s t hex high low c h hhigh hhex hlength hlow hc ih =>
      rw [run_append_of_run ih, run_escape hhex hlength place, List.reverse_append]
      rw [List.reverse_append]
      exact addUnit_pair t.reverse hhigh hlow hc

/-- What the end of a text leads to: the text is a value, or a key that a colon follows. -/
def Place.reading (place : Place) (s : Text) : Reading :=
  match place with
  | .value => .after (.str s)
  | .key members => .colon members s

/-- The rest of a text behind its first mark. -/
theorem run_quoted {place : Place} {s t : Text} (h : Quoted s t)
    (ht : d.admitsLoneSurrogates = true ∨ t.hasSurrogate = false) :
    run d ⟨frames, .string place [] .outside⟩ (s ++ [CodePoint.ofChar '"']) = some ⟨frames, place.reading t⟩ := by
  have hadmitted : (!d.admitsLoneSurrogates && t.hasSurrogate) = false := by
    rcases ht with ht | ht <;> simp [ht]
  have hend : endString d place t.reverse = some (place.reading t) := by
    cases place <;> simp [endString, hadmitted, Place.reading]
  rw [run_append_of_run (h.run place)]
  show run d _ [CodePoint.ofChar '"'] = _
  rw [run_singleton]
  simp only [step, inString, ↓reduceIte, hend, Option.map_some]

/-- A spelled key is read up to the place of its colon. -/
theorem run_key {s : State} {members : Members} {k key : Text}
    (hblank : ∀ c, isSpace c = true → step d s c = some s)
    (hmark : step d s '"' = some ⟨frames, .string (.key members) [] .outside⟩)
    (h : Spells d k (.str key)) : run d s k = some ⟨frames, .colon members key⟩ := by
  cases h with
  | blanks hbefore h hbehind =>
      obtain ⟨q, hq, hkey, rfl⟩ := spellsBare_str_iff.mp h
      rw [List.append_assoc, run_append_of_run (run_blanks hblank hbefore), List.cons_append,
        run_cons_of_step hmark, run_append_of_run (run_quoted hq hkey)]
      exact run_blanks (fun c hc => by simp [step, hc, Place.reading]) hbehind

/-! ## Values -/

mutual

/-- A spelled value is read as the value wherever a value is expected, blanks around it included. -/
theorem Spells.reaches {frames : List Frame} {s : State} {t : Text} {v : Value}
    (hs : Expects d frames s) : Spells d t v → Reaches d frames v s t
  | .blanks hbefore h hbehind => (h.reaches hs).blanks hs hbefore hbehind

/-- A value that is spelled without blanks around it is read as the value wherever one is expected. -/
theorem SpellsBare.reaches {frames : List Frame} {s : State} {t : Text} {v : Value}
    (hs : Expects d frames s) : SpellsBare d t v → Reaches d frames v s t
  | .word h => h.reaches hs
  | .number h => h.reaches hs
  | .string h ht => by
      apply reaches_after
      have hmark := hs.begins '"' rfl (by decide)
      exact (run_cons_of_step hmark _).trans (run_quoted h ht)
  | @SpellsBare.array _ t items h => by
      have hopen := hs.begins '[' rfl (by decide)
      have hnext : step d s '[' = some ⟨.array [] :: frames, .firstItem⟩ := hopen
      apply reaches_after
      rw [run_cons_of_step hnext]
      by_cases hitems : items = []
      · subst hitems
        rw [run_append_of_run (run_blanks (expects_firstItem d _).blank h.isBlank)]
        rfl
      · obtain ⟨done, v, rfl, next, hrun, hends⟩ := h.reaches frames hitems
        rw [run_append_of_run hrun]
        show run d next [CodePoint.ofChar ']'] = _
        rw [run_singleton, hends.step ']' (.inr (.inl rfl))]
        simp [afterValue]
  | @SpellsBare.object _ t given h => by
      have hopen := hs.begins '{' rfl (by decide)
      have hnext : step d s '{' = some ⟨frames, .firstKey⟩ := hopen
      apply reaches_after
      rw [run_cons_of_step hnext]
      by_cases hgiven : given = []
      · subst hgiven
        rw [run_append_of_run (run_blanks (fun c hc => by simp [step, hc]) h.isBlank)]
        rfl
      · obtain ⟨done, key, v, rfl, next, hrun, hends⟩ := h.reaches frames hgiven
        rw [run_append_of_run hrun]
        show run d next [CodePoint.ofChar '}'] = _
        rw [run_singleton, hends.step '}' (.inr (.inr rfl)), Members.ofList_append]
        rfl

/-- The items of an array lead to the last of them, in the frame of the others. -/
theorem SpellsItems.reaches {t : Text} {items : List Value} (frames : List Frame) :
    SpellsItems d t items → items ≠ [] →
    ∃ done v, items = done ++ [v] ∧
      Reaches d (.array done.reverse :: frames) v ⟨.array [] :: frames, .firstItem⟩ t
  | .none _, hne => absurd rfl hne
  | .one h, _ => ⟨[], _, rfl, h.reaches (expects_firstItem d _)⟩
  | .more h hne hv, _ => by
      obtain ⟨done, v, rfl, next, hrun, hends⟩ := h.reaches frames hne
      have hcomma : step d next ',' = some ⟨.array (v :: done.reverse) :: frames, .value⟩ :=
        hends.step ',' (.inl rfl)
      obtain ⟨last, hlast, hended⟩ := hv.reaches (expects_value d (.array (v :: done.reverse) :: frames))
      refine ⟨_, _, rfl, last, ?_, by simpa using hended⟩
      rw [run_append_of_run hrun, run_cons_of_step hcomma, hlast]

/-- The members of an object lead to the last of them, in the frame of the others. -/
theorem SpellsMembers.reaches {t : Text} {given : List (Text × Value)} (frames : List Frame) :
    SpellsMembers d t given → given ≠ [] →
    ∃ done key v, given = done ++ [(key, v)] ∧
      Reaches d (.object (Members.ofList done) key :: frames) v ⟨frames, .firstKey⟩ t
  | .none _, hne => absurd rfl hne
  | .one hkey hv, _ => by
      have hrun := run_key (d := d) (s := ⟨frames, .firstKey⟩) (fun c hc => by simp [step, hc]) rfl hkey
      obtain ⟨last, hlast, hends⟩ := hv.reaches (expects_value d (.object [] _ :: frames))
      refine ⟨[], _, _, rfl, last, ?_, hends⟩
      rw [run_append_of_run hrun]
      exact (run_cons_of_step rfl _).trans hlast
  | @SpellsMembers.more _ r k t given nextKey w h hne hkey hv, _ => by
      obtain ⟨done, key, v, rfl, next, hrun, hends⟩ := h.reaches frames hne
      have hcomma : step d next ',' = some ⟨frames, .nextKey (Members.ofList (done ++ [(key, v)]))⟩ := by
        rw [hends.step ',' (.inl rfl), Members.ofList_append]
        rfl
      have hrunKey := run_key (d := d)
        (s := ⟨frames, .nextKey (Members.ofList (done ++ [(key, v)]))⟩)
        (fun c hc => by simp [step, hc]) rfl hkey
      obtain ⟨last, hlast, hended⟩ := hv.reaches
        (expects_value d (.object (Members.ofList (done ++ [(key, v)])) nextKey :: frames))
      refine ⟨_, _, _, rfl, last, ?_, hended⟩
      rw [run_append_of_run hrun, run_cons_of_step hcomma, run_append_of_run hrunKey]
      exact (run_cons_of_step rfl _).trans hlast

end

/-- A text that the grammar has for a value is read as that value. -/
theorem Spells.read?_eq {t : Text} {v : Value} (h : Spells d t v) : read? d t = some v := by
  obtain ⟨last, hrun, hends⟩ := h.reaches (expects_value d [])
  have hstart : run d start t = some last := hrun
  simp only [read?, hstart, hends.finish rfl]

end PageTree.Json
