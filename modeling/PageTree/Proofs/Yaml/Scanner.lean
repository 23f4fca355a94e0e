import PageTree.Proofs.Yaml.Tame

/-!
# The tokens of a tame document

The invariant of scanning is that what is left to read is tame, and that no token is a tag and no plain
scalar has too many colons. Each token that is taken preserves it, and so does taking all of them
(`TokenStream.ofText_isTame`).
-/

set_option autoImplicit false

namespace PageTree.Yaml

/-! ## Lexemes -/

/-- A name leaves an end of what was left, or has a fault that is foreseen. -/
theorem Lexeme.name_yields (k : Cursor) : Yields (fun r => r.2.rest <:+ k.rest) (name k) := by
  unfold name
  dsimp only
  split
  · exact (Cursor.rest_skip _ _).trans (Cursor.rest_skip 1 k)
  · rfl

/-- A number leaves an end of what was left, or has a fault that is foreseen. -/
theorem Lexeme.number_yields (k : Cursor) : Yields (fun r => r.2.rest <:+ k.rest) (number k) := by
  unfold number
  dsimp only
  split
  · rfl
  · exact Cursor.rest_skip _ k

/-- A version leaves an end of what was left, or has a fault that is foreseen. -/
theorem Lexeme.version_yields (k : Cursor) : Yields (fun r => r.2.rest <:+ k.rest) (version k) := by
  unfold version
  refine (number_yields k.skipSpaces).bind ?_
  rintro ⟨major, afterMajor⟩ hmajor
  dsimp only at hmajor ⊢
  split
  · rfl
  · refine (number_yields (afterMajor.skip 1)).bind ?_
    rintro ⟨minor, after⟩ hminor
    dsimp only at hminor ⊢
    split
    · exact ((hminor.trans (Cursor.rest_skip 1 _)).trans hmajor).trans k.rest_skipSpaces
    · rfl

/-- No tag begins in a tame text. -/
theorem IsTame.isAt_mark {k : Cursor} (h : IsTame k.rest) : k.isAt '!' = false := by
  unfold Cursor.isAt
  apply beq_false_of_ne
  intro hhead
  exact h.noTag (List.mem_of_mem_head? hhead)

/-- Without an exclamation mark there are no handles to define. -/
theorem Lexeme.handleDirective_yields {k : Cursor} (h : IsTame k.rest) :
    Yields (fun r => r.2.rest <:+ k.rest) (handleDirective k) := by
  have hhandle : handle k.skipSpaces = .error .malformed := by
    unfold handle
    rw [(h.of_suffix k.rest_skipSpaces).isAt_mark]
    rfl
  unfold handleDirective
  rw [hhandle]
  rfl

/-- A directive in a tame text leaves an end of what was left, or has a fault that is foreseen. -/
theorem Lexeme.directive_yields {k : Cursor} (h : IsTame k.rest) :
    Yields (fun r => r.2.rest <:+ k.rest) (directive k) := by
  have hname (n : Nat) : ((k.skip 1).skip n).rest <:+ k.rest :=
    (Cursor.rest_skip n _).trans (Cursor.rest_skip 1 k)
  unfold directive
  dsimp only
  split
  · rfl
  · split_ifs
    · refine (version_yields _).bind fun r hr => ?_
      split
      · next last hlast => exact (Cursor.rest_endLine hlast).trans (hr.trans (hname _))
      · rfl
    · refine (handleDirective_yields (h.of_suffix (hname _))).bind fun r hr => ?_
      split
      · next last hlast => exact (Cursor.rest_endLine hlast).trans (hr.trans (hname _))
      · rfl
    · refine Ensures.bind (?_ : Ensures (fun r : Directive × Cursor => r.2.rest <:+ k.rest) _ _)
        fun r hr => ?_
      · exact (Cursor.rest_skip _ _).trans (hname _)
      · split
        · next last hlast => exact (Cursor.rest_endLine hlast).trans hr
        · rfl

/-- The header of a block scalar is read, or has a fault that is foreseen. -/
theorem Block.header_yields (folded : Bool) (s : Text) :
    Yields (fun _ => True) (header folded s) := by
  have hdepth (s : Text) : Yields (fun _ => True) (cutDepth s) := by
    unfold cutDepth
    split
    · exact trivial
    · split_ifs
      · rfl
      · exact trivial
      · exact trivial
  unfold header
  dsimp only
  refine (hdepth _).bind ?_
  rintro ⟨depth, afterDepth⟩ -
  dsimp only
  split_ifs
  · exact trivial
  · rfl

/-! ## Scanning -/

/-- A token that no fault comes from which is not foreseen: it is no tag, and no plain scalar with too many
colons. -/
def Token.IsTame : Token → Prop
  | .tag _ _ => False
  | .scalar content true => content.count (CodePoint.ofChar ':') < Number.mostSixtieths
  | _ => True

namespace Scanner

/-- What is left to read is tame, and so are the tokens. -/
structure IsTame (k : Scanner) : Prop where
  left : Yaml.IsTame k.cursor.rest
  tokens : ∀ t ∈ k.tokens, t.IsTame

/-- A scanner with the place and the tokens of a tame one is tame. -/
theorem IsTame.of_same {k k' : Scanner} (h : k.IsTame) (hcursor : k'.cursor = k.cursor)
    (htokens : k'.tokens = k.tokens) : k'.IsTame where
  left := hcursor ▸ h.left
  tokens := htokens ▸ h.tokens

/-- A step of scanning that preserves that, or meets a fault that is foreseen. -/
def Tamely (x : Except YamlFault Scanner) : Prop := Yields IsTame x

variable {k : Scanner}

/-- A scanner is tame at the start of a tame text. -/
theorem isTame_start {s : Text} (h : Yaml.IsTame s) : (start s).IsTame where
  left := h.of_suffix (Cursor.rest_start s)
  tokens := by
    intro t ht
    cases ht

namespace IsTame

/-- A tame token may be added. -/
theorem push (h : k.IsTame) {t : Token} (ht : t.IsTame) : (k.push t).IsTame where
  left := h.left
  tokens := List.forall_mem_cons.mpr ⟨ht, h.tokens⟩

/-- A tame token may be put among the others. -/
theorem insert (h : k.IsTame) (number : Nat) {t : Token} (ht : t.IsTame) :
    (k.insert number t).IsTame where
  left := h.left
  tokens := by
    intro u hu
    rcases List.mem_append.mp hu with hu | hu
    · exact h.tokens u (List.mem_of_mem_take hu)
    · rcases List.mem_cons.mp hu with rfl | hu
      · exact ht
      · exact h.tokens u (List.mem_of_mem_drop hu)

/-- Indentation makes no difference to a tame scanner. -/
theorem indentTo (h : k.IsTame) (column : Nat) : (k.indentTo column).IsTame := h.of_same rfl rfl

/-- What is read next may be anything that is left. -/
theorem read (h : k.IsTame) {cursor : Cursor} (hsuffix : cursor.rest <:+ k.cursor.rest) :
    IsTame { k with cursor } where
  left := h.left.of_suffix hsuffix
  tokens := h.tokens

/-- A tame token may be added for code points that are skipped. -/
theorem pushSkipping (h : k.IsTame) (n : Nat) {t : Token} (ht : t.IsTame) :
    (k.pushSkipping n t).IsTame :=
  (h.push ht).read (Cursor.rest_skip n _)

/-- Ending blocks down to a column keeps a scanner tame. -/
theorem unwindTo (column : Int) (outer : List Int) (h : k.IsTame) :
    (unwindTo column outer k).IsTame := by
  induction outer generalizing k with
  | nil => exact h
  | cons indent more ih =>
      unfold Scanner.unwindTo
      split
      · exact ih ((h.push (t := .blockEnd) trivial).of_same rfl rfl)
      · exact h

/-- Ending blocks keeps a scanner tame. -/
theorem unwind (h : k.IsTame) (column : Int) : (k.unwind column).IsTame := by
  unfold Scanner.unwind
  split
  · exact h.unwindTo column k.outer
  · exact h

end IsTame

/-- Dropping the keys that are too far behind goes tamely. -/
theorem dropStale_tamely (h : k.IsTame) : Tamely k.dropStale := by
  unfold dropStale
  split
  · rfl
  · exact h.of_same rfl rfl

/-- Dropping the possible key of the level goes tamely. -/
theorem dropKey_tamely (h : k.IsTame) : Tamely k.dropKey := by
  unfold dropKey
  split
  · rfl
  · exact h.of_same rfl rfl

/-- Remembering a possible key goes tamely. -/
theorem saveKey_tamely (h : k.IsTame) : Tamely k.saveKey := by
  unfold saveKey
  split
  · exact (dropKey_tamely h).bind fun k hk => hk.of_same rfl rfl
  · exact h

/-- Opening a block goes tamely. -/
theorem openBlock_tamely (h : k.IsTame) {t : Token} (ht : t.IsTame) : Tamely (k.openBlock t) := by
  unfold openBlock
  split_ifs
  · exact h
  · rfl
  · exact (h.push ht).of_same rfl rfl
  · exact h

/-- The end of the text is taken tamely. -/
theorem takeEnd_tamely (h : k.IsTame) : Tamely k.takeEnd := by
  unfold takeEnd
  refine (dropKey_tamely (h.unwind _)).bind fun k hk => ?_
  exact (hk.push (t := .streamEnd) trivial).of_same rfl rfl

/-- A directive is taken tamely. -/
theorem takeDirective_tamely (h : k.IsTame) : Tamely k.takeDirective := by
  unfold takeDirective
  refine (dropKey_tamely (h.unwind _)).bind fun k hk => ?_
  refine (Lexeme.directive_yields hk.left).bind fun r hr => ?_
  exact ((hk.push (t := .directive r.1) trivial).read hr).of_same rfl rfl

/-- The mark of a document is taken tamely. -/
theorem takeMark_tamely (h : k.IsTame) {t : Token} (ht : t.IsTame) : Tamely (k.takeMark t) := by
  unfold takeMark
  refine (dropKey_tamely (h.unwind _)).bind fun k hk => ?_
  exact (hk.pushSkipping 3 ht).of_same rfl rfl

/-- The start of a collection in flow style is taken tamely. -/
theorem takeFlowStart_tamely (h : k.IsTame) {t : Token} (ht : t.IsTame) :
    Tamely (k.takeFlowStart t) := by
  unfold takeFlowStart
  refine (saveKey_tamely h).bind fun k hk => ?_
  exact (hk.pushSkipping 1 ht).of_same rfl rfl

/-- The end of a collection in flow style is taken tamely. -/
theorem takeFlowEnd_tamely (h : k.IsTame) {t : Token} (ht : t.IsTame) : Tamely (k.takeFlowEnd t) := by
  unfold takeFlowEnd
  refine (dropKey_tamely h).bind fun k hk => ?_
  exact (hk.pushSkipping 1 ht).of_same rfl rfl

/-- A comma in flow style is taken tamely. -/
theorem takeFlowEntry_tamely (h : k.IsTame) : Tamely k.takeFlowEntry := by
  unfold takeFlowEntry
  refine (dropKey_tamely h).bind fun k hk => ?_
  exact (hk.pushSkipping 1 (t := .flowEntry) trivial).of_same rfl rfl

/-- The dash of an item is taken tamely. -/
theorem takeBlockEntry_tamely (h : k.IsTame) : Tamely k.takeBlockEntry := by
  unfold takeBlockEntry
  refine (openBlock_tamely h (t := .blockSequenceStart) trivial).bind fun k hk => ?_
  refine (dropKey_tamely hk).bind fun k hk => ?_
  exact (hk.pushSkipping 1 (t := .blockEntry) trivial).of_same rfl rfl

/-- The mark of a key is taken tamely. -/
theorem takeKey_tamely (h : k.IsTame) : Tamely k.takeKey := by
  unfold takeKey
  refine (openBlock_tamely h (t := .blockMappingStart) trivial).bind fun k hk => ?_
  refine (dropKey_tamely hk).bind fun k hk => ?_
  exact (hk.pushSkipping 1 (t := .key) trivial).of_same rfl rfl

/-- Taking the value of a possible key keeps a scanner tame. -/
theorem isTame_takeValueOf (h : k.IsTame) (key : PossibleKey) : (k.takeValueOf key).IsTame := by
  have hdropped : IsTame { k with keys := k.keys.filter fun e => e.1 != k.flow, keyAllowed := false } :=
    h.of_same rfl rfl
  have hkey := hdropped.insert key.number (t := .key) trivial
  have hblock := hkey.insert key.number (t := .blockMappingStart) trivial
  unfold takeValueOf
  dsimp only
  split
  · exact (hblock.indentTo key.mark.column).pushSkipping 1 (t := .value) trivial
  · exact hkey.pushSkipping 1 (t := .value) trivial

/-- The colon before a value is taken tamely. -/
theorem takeValue_tamely (h : k.IsTame) : Tamely k.takeValue := by
  unfold takeValue
  split
  · exact isTame_takeValueOf h _
  · refine (openBlock_tamely h (t := .blockMappingStart) trivial).bind fun k hk => ?_
    refine (dropKey_tamely hk).bind fun k hk => ?_
    exact (hk.pushSkipping 1 (t := .value) trivial).of_same rfl rfl

/-- An anchor or an alias is taken tamely. -/
theorem takeName_tamely (h : k.IsTame) {make : Text → Token} (hmake : ∀ s, (make s).IsTame) :
    Tamely (k.takeName make) := by
  unfold takeName
  refine (saveKey_tamely h).bind fun k hk => ?_
  refine (Lexeme.name_yields k.cursor).bind fun r hr => ?_
  exact ((hk.push (hmake r.1)).read hr).of_same rfl rfl

/-- A block scalar is taken tamely. -/
theorem takeBlockScalar_tamely (h : k.IsTame) (folded : Bool) : Tamely (k.takeBlockScalar folded) := by
  unfold takeBlockScalar
  refine (dropKey_tamely h).bind fun k hk => ?_
  refine (Block.header_yields folded _).bind fun r _ => ?_
  dsimp only
  split
  · rfl
  · next body hbody =>
      have hbegin : body.rest <:+ k.cursor.rest :=
        ((Cursor.rest_endLine hbody).trans (Cursor.rest_skip _ _)).trans (Cursor.rest_skip 1 k.cursor)
      refine ((hk.push (t := .scalar _ false) trivial).read ?_).of_same rfl rfl
      exact (Block.rest_read _ _ _ _ _ _ _ _).trans hbegin

/-- A quoted scalar is taken tamely. -/
theorem takeQuoted_tamely (h : k.IsTame) (double : Bool) : Tamely (k.takeQuoted double) := by
  unfold takeQuoted
  refine (saveKey_tamely h).bind fun k hk => ?_
  have hinner := Cursor.rest_skip 1 k.cursor
  have hplace : Quoted.Place.inside.Admits (k.cursor.skip 1).rest := trivial
  refine (Quoted.read_yields (hk.left.of_suffix hinner) hplace).bind fun r hr => ?_
  exact ((hk.push (t := .scalar r.1 false) trivial).read (hr.trans hinner)).of_same rfl rfl

/-- A plain scalar is taken tamely. -/
theorem takePlain_tamely (h : k.IsTame) : Tamely k.takePlain := by
  unfold takePlain
  refine (saveKey_tamely h).bind fun k hk => ?_
  have hcolons := Plain.count_read_le (k.flow ≠ 0) (k.indent + 1).toNat [] .word k.cursor.mark
    k.cursor.rest
  have hsuffix := Plain.rest_read (k.flow ≠ 0) (k.indent + 1).toNat [] .word k.cursor.mark
    k.cursor.rest
  rw [List.count_nil, Plain.Place.colons, Nat.zero_add] at hcolons
  have hscalar : (Token.scalar (Plain.read (k.flow ≠ 0) (k.indent + 1).toNat [] .word k.cursor.mark
      k.cursor.rest).value true).IsTame := Nat.lt_of_le_of_lt hcolons hk.left.fewColons
  exact ((hk.push hscalar).read hsuffix).of_same rfl rfl

/-- A choice between two steps goes tamely if both do. -/
theorem tamely_ite {p : Prop} [Decidable p] {x y : Except YamlFault Scanner} (hx : p → Tamely x)
    (hy : ¬ p → Tamely y) : Tamely (if p then x else y) := by
  split
  · next h => exact hx h
  · next h => exact hy h

/-- Every token is taken tamely. -/
theorem takeToken_tamely (h : k.IsTame) {c : CodePoint} {rest : Text} (hc : c ∈ k.cursor.rest) :
    Tamely (k.takeToken c rest) := by
  unfold takeToken
  refine tamely_ite (fun _ => takeDirective_tamely h) fun _ => ?_
  refine tamely_ite (fun _ => takeMark_tamely h trivial) fun _ => ?_
  refine tamely_ite (fun _ => takeMark_tamely h trivial) fun _ => ?_
  refine tamely_ite (fun _ => takeFlowStart_tamely h trivial) fun _ => ?_
  refine tamely_ite (fun _ => takeFlowStart_tamely h trivial) fun _ => ?_
  refine tamely_ite (fun _ => takeFlowEnd_tamely h trivial) fun _ => ?_
  refine tamely_ite (fun _ => takeFlowEnd_tamely h trivial) fun _ => ?_
  refine tamely_ite (fun _ => takeFlowEntry_tamely h) fun _ => ?_
  refine tamely_ite (fun _ => takeBlockEntry_tamely h) fun _ => ?_
  refine tamely_ite (fun _ => takeKey_tamely h) fun _ => ?_
  refine tamely_ite (fun _ => takeValue_tamely h) fun _ => ?_
  refine tamely_ite (fun _ => takeName_tamely h fun _ => trivial) fun _ => ?_
  refine tamely_ite (fun _ => takeName_tamely h fun _ => trivial) fun _ => ?_
  -- There is no exclamation mark, so there is no tag.
  refine tamely_ite (fun hmark => absurd (hmark ▸ hc) h.left.noTag) fun _ => ?_
  refine tamely_ite (fun _ => takeBlockScalar_tamely h false) fun _ => ?_
  refine tamely_ite (fun _ => takeBlockScalar_tamely h true) fun _ => ?_
  refine tamely_ite (fun _ => takeQuoted_tamely h false) fun _ => ?_
  refine tamely_ite (fun _ => takeQuoted_tamely h true) fun _ => ?_
  exact tamely_ite (fun _ => takePlain_tamely h) fun _ => rfl

/-- Going to the next token keeps a scanner tame. -/
theorem isTame_approach (h : k.IsTame) : k.approach.IsTame :=
  (h.read (Cursor.rest_nextToken false false k.cursor.mark k.cursor.rest)).of_same rfl rfl

/-- Every step of the scanner goes tamely. -/
theorem next_tamely (h : k.IsTame) : Tamely k.next := by
  unfold next
  refine (dropStale_tamely (isTame_approach h)).bind fun k hk => ?_
  have hunwound := hk.unwind k.column
  dsimp only
  split
  · exact takeEnd_tamely hunwound
  · next c rest hrest => exact takeToken_tamely hunwound (hrest ▸ List.mem_cons_self)

end Scanner

/-- The tokens of a stream are tame, and its fault is foreseen, if it has one. -/
structure TokenStream.IsTame (stream : TokenStream) : Prop where
  tokens : ∀ t ∈ stream.tokens, t.IsTame
  fault : ∀ fault, stream.fault = some fault → fault.isForeseen = true

/-- The tokens that a tame scanner finishes with are tame, and so is the fault. -/
theorem Scanner.finish_isTame (fuel : Nat) {k : Scanner} (h : k.IsTame) : (finish fuel k).IsTame := by
  -- The tokens that come with a fault are some of those taken before it, which the invariant covers.
  induction fuel generalizing k with
  | zero =>
      refine ⟨fun t ht => h.tokens t (List.mem_reverse.mp ht), ?_⟩
      rintro fault ⟨⟩
      rfl
  | succ fuel ih =>
      have hnext := next_tamely h
      unfold finish
      cases hresult : k.next with
      | error fault =>
          rw [hresult] at hnext
          refine ⟨fun t ht => h.tokens t (List.mem_reverse.mp (List.mem_of_mem_take ht)), ?_⟩
          rintro _ ⟨⟩
          exact hnext
      | ok after =>
          rw [hresult] at hnext
          dsimp only
          split
          · refine ⟨fun t ht => hnext.tokens t (List.mem_reverse.mp ht), ?_⟩
            rintro fault ⟨⟩
          · exact ih hnext

/-- The tokens of a tame text are tame, and its fault is foreseen, if it has one. -/
theorem TokenStream.ofText_isTame {s : Text} (h : Yaml.IsTame s) : (ofText s).IsTame :=
  Scanner.finish_isTame _ (Scanner.isTame_start h)

end PageTree.Yaml
