import PageTree.Proofs.Json.RoundTrip
import PageTree.Proofs.Yaml.Strings
import PageTree.Yaml.TokenStream

/-!
# The tokens of a JSON text

JSON is written in flow style, on one line. A scanner that reads such a text meets neither indentation nor
plain scalars, and none of its possible keys has to be one. `Scanner.At` says what is known of it between two
tokens. A value that is made of texts takes the scanner from one such place to another
(`Scanner.passes`), and the tokens that it passes are those of the value (`Value.tokens`).
-/

set_option autoImplicit false

namespace PageTree

/-! ## Values made of texts -/

/-- A key that can be typed, and whose JSON form is not too long to be told to be a key when the colon
comes. -/
structure Text.IsShortKey (key : Text) : Prop where
  typeable : Text.isTypeable key = true
  short : (Json.writeText key).length ≤ 1024

instance (key : Text) : Decidable (Text.IsShortKey key) :=
  decidable_of_iff (Text.isTypeable key = true ∧ (Json.writeText key).length ≤ 1024)
    ⟨fun h => ⟨h.1, h.2⟩, fun h => ⟨h.typeable, h.short⟩⟩

namespace Value

mutual

/-- A value that is made of texts that can be typed, in arrays and in objects with short keys. -/
def IsTextual : Value → Prop
  | .str s => Text.isTypeable s = true
  | .array items => AllTextual items
  | .object members => MembersTextual members
  | _ => False

/-- Items that are made of texts. -/
def AllTextual : List Value → Prop
  | [] => True
  | v :: rest => v.IsTextual ∧ AllTextual rest

/-- Members that are made of texts. -/
def MembersTextual : List (Text × Value) → Prop
  | [] => True
  | (key, v) :: rest => Text.IsShortKey key ∧ v.IsTextual ∧ MembersTextual rest

end

open Yaml (Token)

mutual

/-- The tokens of a value in flow style. -/
def tokens : Value → List Token
  | .str s => [.scalar s false]
  | .array items => .flowSequenceStart :: ((itemTokens items).tail ++ [.flowSequenceEnd])
  | .object members => .flowMappingStart :: ((memberTokens members).tail ++ [.flowMappingEnd])
  | _ => []

/-- The tokens of items, each with the comma before it. -/
def itemTokens : List Value → List Token
  | [] => []
  | v :: rest => .flowEntry :: (v.tokens ++ itemTokens rest)

/-- The tokens of members, each with the comma before it. -/
def memberTokens : List (Text × Value) → List Token
  | [] => []
  | (key, v) :: rest =>
    .flowEntry :: .key :: .scalar key false :: .value :: (v.tokens ++ memberTokens rest)

end

end Value

namespace Yaml.Scanner

/-- Some tokens are taken between two places of a scanner, no more than there are code points. -/
def Leads (k k' : Scanner) : Prop :=
  ∃ n, n + k'.cursor.rest.length ≤ k.cursor.rest.length ∧ ∀ fuel, finish (n + fuel) k = finish fuel k'

/-- A place leads to itself. -/
theorem Leads.refl (k : Scanner) : Leads k k := ⟨0, by simp, fun fuel => by rw [Nat.zero_add]⟩

/-- A place that leads to a second one leads where that one leads. -/
theorem Leads.trans {k₁ k₂ k₃ : Scanner} (h₁ : Leads k₁ k₂) (h₂ : Leads k₂ k₃) : Leads k₁ k₃ := by
  obtain ⟨n₁, hlength₁, hfinish₁⟩ := h₁
  obtain ⟨n₂, hlength₂, hfinish₂⟩ := h₂
  refine ⟨n₁ + n₂, by omega, fun fuel => ?_⟩
  rw [Nat.add_assoc, hfinish₁, hfinish₂]

/-- What is known of a scanner on a JSON text: the tokens so far, the last first, how many collections are
open, whether a key may start, and what follows. -/
structure At (k : Scanner) (tokens : List Token) (flow : Nat) (allowed : Bool) (rest : Text) : Prop where
  tokens : k.tokens = tokens
  flow : k.flow = flow
  keyAllowed : k.keyAllowed = allowed
  rest : k.cursor.rest = rest
  indent : k.indent = -1
  outer : k.outer = []
  keys : ∀ x ∈ k.keys, x.2.required = false
  done : k.done = false

variable {k : Scanner} {ts : List Token} {flow : Nat} {allowed : Bool} {rest : Text}

/-- A token has been taken if less of the text is left. -/
theorem At.leads {k' : Scanner} {ts' : List Token} {flow' : Nat} {allowed' : Bool} {rest' : Text}
    (h : k.At ts flow allowed rest) (hnext : k.next = .ok k') (h' : k'.At ts' flow' allowed' rest')
    (hlength : rest'.length < rest.length) : Leads k k' := by
  refine ⟨1, ?_, fun fuel => ?_⟩
  · rw [h.rest, h'.rest]
    omega
  · rw [Nat.add_comm, finish, hnext]
    simp [h'.done]

/-! ## Possible keys -/

/-- The scanner without the possible keys that are too far behind. -/
def fresh (k : Scanner) : Scanner := { k with keys := k.keys.filter fun x => !k.isStale x.2 }

/-- Possible keys that need not be keys make no difference to a place. -/
theorem At.withKeys (h : k.At ts flow allowed rest) {keys : List (Nat × PossibleKey)}
    (hkeys : ∀ x ∈ keys, x.2.required = false) : At { k with keys } ts flow allowed rest :=
  ⟨h.tokens, h.flow, h.keyAllowed, h.rest, h.indent, h.outer, hkeys, h.done⟩

/-- Dropping the keys that are too far behind makes no difference to a place. -/
theorem At.fresh (h : k.At ts flow allowed rest) : k.fresh.At ts flow allowed rest :=
  h.withKeys fun x hx => h.keys x ((List.mem_filter.mp hx).1)

/-- At a place, the keys that are too far behind are dropped without a fault. -/
theorem dropStale_eq (h : k.At ts flow allowed rest) : k.dropStale = .ok k.fresh := by
  unfold dropStale
  rw [if_neg]
  · rfl
  · simp only [List.any_eq_true, not_exists, not_and]
    intro x hx
    simp [h.keys x hx]

/-- The scanner without the possible key of its level. -/
def keyless (k : Scanner) : Scanner := { k with keys := k.keys.filter fun x => x.1 != k.flow }

/-- Dropping the possible key of the level makes no difference to a place. -/
theorem At.keyless (h : k.At ts flow allowed rest) : k.keyless.At ts flow allowed rest :=
  h.withKeys fun x hx => h.keys x ((List.mem_filter.mp hx).1)

/-- At a place, the possible key of the level is dropped without a fault. -/
theorem dropKey_eq (h : k.At ts flow allowed rest) : k.dropKey = .ok k.keyless := by
  unfold dropKey
  rw [if_neg]
  · rfl
  · simp only [List.any_eq_true, not_exists, not_and]
    intro x hx
    simp [h.keys x hx]

/-- The scanner with its place kept as a possible key. -/
def keyed (k : Scanner) : Scanner :=
  if k.keyAllowed then
    { k.keyless with keys := (k.flow, ⟨k.count, false, k.cursor.mark⟩) :: k.keyless.keys }
  else k

/-- Where a key may start, its place is remembered. -/
theorem keyed_of_keyAllowed (h : k.keyAllowed = true) :
    k.keyed = { k.keyless with
      keys := (k.flow, ⟨k.count, false, k.cursor.mark⟩) :: k.keyless.keys } := if_pos h

/-- Remembering a possible key makes no difference to a place. -/
theorem At.keyed (h : k.At ts flow allowed rest) : k.keyed.At ts flow allowed rest := by
  unfold Scanner.keyed
  split
  · refine h.keyless.withKeys ?_
    intro x hx
    rcases List.mem_cons.mp hx with rfl | hx
    · rfl
    · exact h.keyless.keys x hx
  · exact h

/-- Without indentation no key has to be one. -/
theorem saveKey_eq (h : k.At ts flow allowed rest) : k.saveKey = .ok k.keyed := by
  have hcolumn : ¬ (k.flow = 0 ∧ k.indent = k.column) := by
    rintro ⟨-, hindent⟩
    rw [h.indent] at hindent
    omega
  unfold saveKey Scanner.keyed
  split
  · rw [dropKey_eq h]
    simp only [hcolumn, decide_false]
    rfl
  · rfl

/-! ## Single tokens -/

/-- The signs that tokens of a JSON text start with. -/
def signs : Text := text "[]\x7b\x7d,:\""

/-- In flow style, no indentation ends. -/
theorem At.unwind_eq (h : k.At ts flow allowed rest) (column : Int) : k.unwind column = k := by
  unfold unwind
  rw [h.outer, unwindTo, ite_self]

/-- Where a token starts, or the text ends, only possible keys can be given up before it is taken. -/
theorem next_of_approach (h : k.At ts flow allowed rest)
    (hnextToken : Cursor.nextToken false false k.cursor.mark rest = (false, ⟨k.cursor.mark, rest⟩)) :
    (rest = [] → k.next = k.fresh.takeEnd) ∧
      ∀ c more, rest = c :: more → k.next = k.fresh.takeToken c more := by
  have happroach : k.approach = k := by
    unfold approach
    rw [h.rest, hnextToken]
    simp only [Bool.false_and, Bool.or_false]
    rw [← h.rest]
  have hrest := h.fresh.rest
  unfold next
  rw [happroach, dropStale_eq h]
  simp only [bind, Except.bind, h.fresh.unwind_eq]
  constructor
  · rintro rfl
    rw [hrest]
  · rintro c more rfl
    rw [hrest]

/-- No blanks and no line ends stand between the tokens. -/
theorem next_eq {c : CodePoint} (h : k.At ts flow allowed (c :: rest)) (hc : c ∈ signs) :
    k.next = k.fresh.takeToken c rest := by
  have hsigns : ∀ c ∈ signs, isBreak c = false ∧ c ≠ ' ' ∧ c ≠ '#' := by decide
  have hplain := hsigns c hc
  refine (next_of_approach h ?_).2 c rest rfl
  rw [Cursor.nextToken]
  simp only [hplain.1, hplain.2.1, hplain.2.2, Bool.false_eq_true, if_false, decide_false,
    Bool.or_false]

/-- The cursor of a place stands before what follows. -/
theorem At.cursor_eq (h : k.At ts flow allowed rest) : k.cursor = ⟨k.cursor.mark, rest⟩ := by
  rw [← h.rest]

/-- A token of one code point has been taken. -/
theorem At.pushSkipping {c : CodePoint} (h : k.At ts flow allowed (c :: rest)) (t : Token) :
    (k.pushSkipping 1 t).At (t :: ts) flow allowed rest where
  tokens := congrArg (t :: ·) h.tokens
  flow := h.flow
  keyAllowed := h.keyAllowed
  rest := by
    show (k.cursor.skip 1).rest = rest
    rw [h.cursor_eq]
    rfl
  indent := h.indent
  outer := h.outer
  keys := h.keys
  done := h.done

/-- A collection has been entered or left, and it is settled whether a key may start. -/
theorem At.within (h : k.At ts flow allowed rest) {flow' n : Nat} (hflow : n = flow') (allowed' : Bool) :
    At { k with flow := n, keyAllowed := allowed' } ts flow' allowed' rest :=
  ⟨h.tokens, hflow, rfl, h.rest, h.indent, h.outer, h.keys, h.done⟩

/-- An opening bracket starts a sequence. -/
theorem takeToken_openingSequence (k : Scanner) (rest : Text) :
    k.takeToken '[' rest = k.takeFlowStart .flowSequenceStart := by
  simp [takeToken, startsWithMark, text]

/-- An opening brace starts a mapping. -/
theorem takeToken_openingMapping (k : Scanner) (rest : Text) :
    k.takeToken '\x7b' rest = k.takeFlowStart .flowMappingStart := by
  simp [takeToken, startsWithMark, text]

/-- A closing bracket ends a sequence. -/
theorem takeToken_closingSequence (k : Scanner) (rest : Text) :
    k.takeToken ']' rest = k.takeFlowEnd .flowSequenceEnd := by
  simp [takeToken, startsWithMark, text]

/-- A closing brace ends a mapping. -/
theorem takeToken_closingMapping (k : Scanner) (rest : Text) :
    k.takeToken '\x7d' rest = k.takeFlowEnd .flowMappingEnd := by
  simp [takeToken, startsWithMark, text]

/-- A bracket opens a collection, in which a key may start. -/
theorem leads_opening {c : CodePoint} {t : Token} (hc : c ∈ signs)
    (htake : ∀ k rest, takeToken k c rest = k.takeFlowStart t) (h : k.At ts flow allowed (c :: rest)) :
    ∃ k', Leads k k' ∧ k'.At (t :: ts) (flow + 1) true rest := by
  have hnext : k.next = .ok { k.fresh.keyed.pushSkipping 1 t with
      flow := k.fresh.keyed.flow + 1, keyAllowed := true } := by
    rw [next_eq h hc, htake, takeFlowStart, saveKey_eq h.fresh]
    rfl
  have hafter := (h.fresh.keyed.pushSkipping t).within (congrArg (· + 1) h.fresh.keyed.flow) true
  exact ⟨_, h.leads hnext hafter (Nat.lt_succ_self _), hafter⟩

/-- A bracket closes a collection. -/
theorem leads_closing {c : CodePoint} {t : Token} (hc : c ∈ signs)
    (htake : ∀ k rest, takeToken k c rest = k.takeFlowEnd t) (h : k.At ts (flow + 1) allowed (c :: rest)) :
    ∃ k', Leads k k' ∧ k'.At (t :: ts) flow false rest := by
  have hnext : k.next = .ok { k.fresh.keyless.pushSkipping 1 t with
      flow := k.fresh.keyless.flow - 1, keyAllowed := false } := by
    rw [next_eq h hc, htake, takeFlowEnd, dropKey_eq h.fresh]
    rfl
  have hafter := (h.fresh.keyless.pushSkipping t).within (congrArg (· - 1) h.fresh.keyless.flow) false
  exact ⟨_, h.leads hnext hafter (Nat.lt_succ_self _), hafter⟩

/-- Behind a comma a key may start again. -/
theorem leads_comma (h : k.At ts flow allowed (CodePoint.ofChar ',' :: rest)) :
    ∃ k', Leads k k' ∧ k'.At (.flowEntry :: ts) flow true rest := by
  have htake : k.fresh.takeToken ',' rest = k.fresh.takeFlowEntry := by
    simp [takeToken, startsWithMark, text]
  have hnext : k.next = .ok { k.fresh.keyless.pushSkipping 1 .flowEntry with keyAllowed := true } := by
    rw [next_eq h (by decide), htake, takeFlowEntry, dropKey_eq h.fresh]
    rfl
  have hafter := (h.fresh.keyless.pushSkipping .flowEntry).within h.fresh.keyless.flow true
  exact ⟨_, h.leads hnext hafter (Nat.lt_succ_self _), hafter⟩

/-- The token before the place of reading is a possible key, and so many code points long. -/
def HasPassed (k : Scanner) (length : Nat) : Prop :=
  ∃ number mark more, k.keys = (k.flow, ⟨number, false, mark⟩) :: more ∧ k.count = number + 1 ∧
    Mark.IsAhead length mark k.cursor.mark

/-- A string is one token, and where a key may start it may be one. -/
theorem leads_string {s : Text} (hs : Text.isTypeable s = true)
    (h : k.At ts flow allowed (Json.writeText s ++ rest)) :
    ∃ k', Leads k k' ∧ k'.At (.scalar s false :: ts) flow false rest ∧
      (allowed = true → k'.HasPassed (Json.writeText s).length) := by
  rw [Json.writeText_append] at h
  have htake : k.fresh.takeToken '"' (s.flatMap Json.writePoint ++ CodePoint.ofChar '"' :: rest) =
      k.fresh.takeQuoted true := by
    simp [takeToken, startsWithMark, text]
  have hkeyed := h.fresh.keyed
  have hinner : k.fresh.keyed.cursor.skip 1 = ⟨k.fresh.keyed.cursor.mark.pass '"',
      s.flatMap Json.writePoint ++ CodePoint.ofChar '"' :: rest⟩ := by
    rw [hkeyed.cursor_eq]
    rfl
  obtain ⟨m', hahead, hread⟩ := Quoted.read_written hs rest [] .inside trivial
    (k.fresh.keyed.cursor.mark.pass '"')
  have hnext : k.next = .ok { k.fresh.keyed.push (.scalar s false) with
      keyAllowed := false, cursor := ⟨m', rest⟩ } := by
    rw [next_eq h (by decide), htake, takeQuoted, saveKey_eq h.fresh]
    show (Quoted.read true [] .inside (k.fresh.keyed.cursor.skip 1).mark
      (k.fresh.keyed.cursor.skip 1).rest >>= fun r => _) = _
    rw [hinner, hread]
    rfl
  have hafter : At { k.fresh.keyed.push (.scalar s false) with keyAllowed := false, cursor := ⟨m', rest⟩ }
      (.scalar s false :: ts) flow false rest :=
    ⟨congrArg (Token.scalar s false :: ·) hkeyed.tokens, hkeyed.flow, rfl, rfl, hkeyed.indent,
      hkeyed.outer, hkeyed.keys, hkeyed.done⟩
  refine ⟨_, h.leads hnext hafter ?_, hafter, ?_⟩
  · simp only [List.length_cons, List.length_append]
    omega
  · intro hallowed
    rw [keyed_of_keyAllowed (h.fresh.keyAllowed.trans hallowed)] at hahead ⊢
    exact ⟨k.fresh.count, k.fresh.cursor.mark, k.fresh.keyless.keys, rfl, rfl,
      Json.length_writeText s ▸ (Mark.isAhead_pass (c := '"') rfl _).trans hahead⟩

/-- A colon shows that the token before it is a key. -/
theorem leads_colon {t : Token} {length : Nat}
    (h : k.At (t :: ts) (flow + 1) allowed (CodePoint.ofChar ':' :: rest)) (hpassed : k.HasPassed length)
    (hshort : length ≤ 1024) :
    ∃ k', Leads k k' ∧ k'.At (.value :: t :: .key :: ts) (flow + 1) false rest := by
  obtain ⟨number, mark, more, hkeys, hcount, hahead⟩ := hpassed
  have hstale : k.isStale ⟨number, false, mark⟩ = false := by
    simp only [isStale, Bool.or_eq_false_iff, bne_eq_false_iff_eq, decide_eq_false_iff_not]
    exact ⟨hahead.line.symm, by rw [hahead.index]; omega⟩
  have htake : k.fresh.takeToken ':' rest = k.fresh.takeValue := by
    simp [takeToken, startsWithMark, text, h.fresh.flow]
  have hfind : k.fresh.keys.find? (·.1 == k.fresh.flow) = some (k.flow, ⟨number, false, mark⟩) := by
    simp [Scanner.fresh, hkeys, hstale]
  -- The key goes in before the token that has just been taken, and no block mapping starts in flow style.
  have hmarked : At (insert number .key { k.fresh.keyless with keyAllowed := false })
      (t :: .key :: ts) (flow + 1) false (CodePoint.ofChar ':' :: rest) := by
    have hkeyless := h.fresh.keyless
    refine ⟨?_, hkeyless.flow, rfl, hkeyless.rest, hkeyless.indent, hkeyless.outer, hkeyless.keys,
      hkeyless.done⟩
    show k.tokens.take (k.count - number) ++ .key :: k.tokens.drop (k.count - number) = _
    rw [hcount, Nat.add_sub_cancel_left, h.tokens]
    rfl
  have htaken : k.fresh.takeValueOf ⟨number, false, mark⟩ =
      (insert number .key { k.fresh.keyless with keyAllowed := false }).pushSkipping 1 .value := by
    have hflow : k.fresh.flow ≠ 0 := by
      rw [h.fresh.flow]
      exact Nat.succ_ne_zero flow
    unfold takeValueOf
    dsimp only
    rw [if_neg]
    · rfl
    · simp [insert, hflow]
  have hpushed := hmarked.pushSkipping .value
  have hnext : k.next = .ok ((insert number .key { k.fresh.keyless with keyAllowed := false }).pushSkipping 1
      .value) := by
    rw [next_eq h (by decide), htake, takeValue, hfind]
    exact congrArg Except.ok htaken
  exact ⟨_, h.leads hnext hpushed (Nat.lt_succ_self _), hpushed⟩

/-! ## Values -/

/-- The JSON forms of items, each with the comma before it. -/
def itemsText (items : List Value) : Text := (Json.writeItems items).flatMap fun t => text "," ++ t

/-- The JSON forms of members, each with the comma before it. -/
def membersText (members : List (Text × Value)) : Text :=
  (Json.writeMembers members).flatMap fun t => text "," ++ t

/-- The text of further items begins with a comma and the first of them. -/
theorem itemsText_cons (v : Value) (items : List Value) :
    itemsText (v :: items) = CodePoint.ofChar ',' :: (Json.write v ++ itemsText items) := rfl

/-- The text of further members begins with a comma, the first key, a colon and its value. -/
theorem membersText_cons (key : Text) (v : Value) (members : List (Text × Value)) :
    membersText ((key, v) :: members) =
      CodePoint.ofChar ',' :: (Json.writeText key ++
        CodePoint.ofChar ':' :: (Json.write v ++ membersText members)) := by
  simp [membersText, Json.writeMembers, text]

/-- An array is written as its first item, the text of the others and the bracket behind them. -/
theorem write_array (v : Value) (items : List Value) (rest : Text) :
    Json.write (.array (v :: items)) ++ rest =
      CodePoint.ofChar '[' :: (Json.write v ++ (itemsText items ++ CodePoint.ofChar ']' :: rest)) := by
  simp [Json.write, Json.writeItems, Json.join_cons, itemsText, text]

/-- An object is written as its first member, the text of the others and the brace behind them. -/
theorem write_object (key : Text) (v : Value) (members : List (Text × Value)) (rest : Text) :
    Json.write (.object ((key, v) :: members)) ++ rest =
      CodePoint.ofChar '\x7b' :: (Json.writeText key ++ CodePoint.ofChar ':' ::
        (Json.write v ++ (membersText members ++ CodePoint.ofChar '\x7d' :: rest))) := by
  simp [Json.write, Json.writeMembers, Json.join_cons, membersText, text]

/-- The JSON form of a value takes a scanner from one place to another, past the tokens of the value. -/
def Passes (v : Value) : Prop :=
  ∀ (k : Scanner) (ts : List Token) (flow : Nat) (allowed : Bool) (rest : Text),
    k.At ts flow allowed (Json.write v ++ rest) →
      ∃ k', Leads k k' ∧ k'.At (v.tokens.reverse ++ ts) flow false rest

/-- A member is passed if its value is. -/
theorem leads_member {key : Text} (hkey : Text.IsShortKey key) {v : Value} (hv : Passes v)
    (h : k.At ts (flow + 1) true (Json.writeText key ++ CodePoint.ofChar ':' :: (Json.write v ++ rest))) :
    ∃ k', Leads k k' ∧
      k'.At (v.tokens.reverse ++ .value :: .scalar key false :: .key :: ts) (flow + 1) false rest := by
  obtain ⟨k₁, hleads₁, h₁, hpassed⟩ := leads_string hkey.typeable h
  obtain ⟨k₂, hleads₂, h₂⟩ := leads_colon h₁ (hpassed rfl) hkey.short
  obtain ⟨k₃, hleads₃, h₃⟩ := hv k₂ _ _ _ _ h₂
  exact ⟨k₃, (hleads₁.trans hleads₂).trans hleads₃, h₃⟩

mutual

/-- The scanner passes every value that is made of texts. -/
theorem passes : (v : Value) → v.IsTextual → Passes v
  | .str s, hv => fun k ts flow allowed rest h => by
      obtain ⟨k', hleads, hat, -⟩ := leads_string hv h
      exact ⟨k', hleads, hat⟩
  | .array [], _ => fun k ts flow allowed rest h => by
      obtain ⟨k₁, hleads₁, h₁⟩ := leads_opening (by decide) takeToken_openingSequence h
      obtain ⟨k₂, hleads₂, h₂⟩ := leads_closing (by decide) takeToken_closingSequence h₁
      exact ⟨k₂, hleads₁.trans hleads₂, h₂⟩
  | .array (v :: items), ⟨hv, hitems⟩ => fun k ts flow allowed rest h => by
      rw [write_array] at h
      obtain ⟨k₁, hleads₁, h₁⟩ := leads_opening (by decide) takeToken_openingSequence h
      obtain ⟨k₂, hleads₂, h₂⟩ := passes v hv k₁ _ _ _ _ h₁
      obtain ⟨k₃, hleads₃, h₃⟩ := passes_items items hitems k₂ _ _ _ h₂
      obtain ⟨k₄, hleads₄, h₄⟩ := leads_closing (by decide) takeToken_closingSequence h₃
      refine ⟨k₄, ((hleads₁.trans hleads₂).trans hleads₃).trans hleads₄, ?_⟩
      simpa [Value.tokens, Value.itemTokens] using h₄
  | .object [], _ => fun k ts flow allowed rest h => by
      obtain ⟨k₁, hleads₁, h₁⟩ := leads_opening (by decide) takeToken_openingMapping h
      obtain ⟨k₂, hleads₂, h₂⟩ := leads_closing (by decide) takeToken_closingMapping h₁
      exact ⟨k₂, hleads₁.trans hleads₂, h₂⟩
  | .object ((key, v) :: members), ⟨hkey, hv, hmembers⟩ => fun k ts flow allowed rest h => by
      rw [write_object] at h
      obtain ⟨k₁, hleads₁, h₁⟩ := leads_opening (by decide) takeToken_openingMapping h
      obtain ⟨k₂, hleads₂, h₂⟩ := leads_member hkey (passes v hv) h₁
      obtain ⟨k₃, hleads₃, h₃⟩ := passes_members members hmembers k₂ _ _ _ h₂
      obtain ⟨k₄, hleads₄, h₄⟩ := leads_closing (by decide) takeToken_closingMapping h₃
      refine ⟨k₄, ((hleads₁.trans hleads₂).trans hleads₃).trans hleads₄, ?_⟩
      simpa [Value.tokens, Value.memberTokens] using h₄

/-- Items are passed with the commas before them. -/
theorem passes_items : (items : List Value) → Value.AllTextual items →
    ∀ (k : Scanner) (ts : List Token) (flow : Nat) (rest : Text),
    k.At ts flow false (itemsText items ++ rest) →
      ∃ k', Leads k k' ∧ k'.At ((Value.itemTokens items).reverse ++ ts) flow false rest
  | [], _, k, _, _, _, h => ⟨k, .refl k, h⟩
  | v :: items, ⟨hv, hitems⟩, k, ts, flow, rest, h => by
      rw [itemsText_cons, List.cons_append, List.append_assoc] at h
      obtain ⟨k₁, hleads₁, h₁⟩ := leads_comma h
      obtain ⟨k₂, hleads₂, h₂⟩ := passes v hv k₁ _ _ _ _ h₁
      obtain ⟨k₃, hleads₃, h₃⟩ := passes_items items hitems k₂ _ _ _ h₂
      refine ⟨k₃, (hleads₁.trans hleads₂).trans hleads₃, ?_⟩
      simpa [Value.itemTokens] using h₃

/-- So are members. -/
theorem passes_members : (members : List (Text × Value)) → Value.MembersTextual members →
    ∀ (k : Scanner) (ts : List Token) (flow : Nat) (rest : Text),
    k.At ts (flow + 1) false (membersText members ++ rest) →
      ∃ k', Leads k k' ∧ k'.At ((Value.memberTokens members).reverse ++ ts) (flow + 1) false rest
  | [], _, k, _, _, _, h => ⟨k, .refl k, h⟩
  | (key, v) :: members, ⟨hkey, hv, hmembers⟩, k, ts, flow, rest, h => by
      rw [membersText_cons] at h
      simp only [List.cons_append, List.append_assoc] at h
      obtain ⟨k₁, hleads₁, h₁⟩ := leads_comma h
      obtain ⟨k₂, hleads₂, h₂⟩ := leads_member hkey (passes v hv) h₁
      obtain ⟨k₃, hleads₃, h₃⟩ := passes_members members hmembers k₂ _ _ _ h₂
      refine ⟨k₃, (hleads₁.trans hleads₂).trans hleads₃, ?_⟩
      simpa [Value.memberTokens] using h₃

end

/-! ## The whole text -/

/-- At the end of the text only the token of the end is left. -/
theorem finish_at_end (h : k.At ts 0 allowed []) (fuel : Nat) :
    finish (fuel + 1) k = ⟨(.streamEnd :: ts).reverse, none⟩ := by
  have hnext : k.next = .ok { k.fresh.keyless.push .streamEnd with
      keyAllowed := false, keys := [], done := true } := by
    rw [(next_of_approach h rfl).1 rfl, takeEnd, h.fresh.unwind_eq, dropKey_eq h.fresh]
    rfl
  rw [finish, hnext, ← h.tokens]
  rfl

/-- A scanner at the start of a text without a byte order mark. -/
theorem at_start {s : Text} (hs : s.head? ≠ some CodePoint.byteOrderMark) :
    (start s).At [] 0 true s := by
  have hcursor : Cursor.start s = ⟨.start, s⟩ := by
    unfold Cursor.start
    rw [if_neg]
    simpa [Cursor.isAt] using hs
  exact ⟨rfl, rfl, rfl, by rw [start, hcursor], rfl, rfl, nofun, rfl⟩

end Yaml.Scanner

/-- The first sign of a JSON text is a bracket or a mark. -/
theorem Value.head?_write {v : Value} (hv : v.IsTextual) :
    ∃ c ∈ Yaml.Scanner.signs, (Json.write v).head? = some c := by
  cases v with
  | str s => exact ⟨'"', by decide, rfl⟩
  | array items => exact ⟨'[', by decide, rfl⟩
  | object members => exact ⟨'\x7b', by decide, rfl⟩
  | _ => exact hv.elim

open Yaml in
/-- The tokens of a JSON text are those of its value, and nothing is wrong with them. -/
theorem Yaml.TokenStream.ofText_write {v : Value} (hv : v.IsTextual) :
    TokenStream.ofText (Json.write v) = ⟨v.tokens ++ [.streamEnd], none⟩ := by
  have hstart : (Scanner.start (Json.write v)).At [] 0 true (Json.write v ++ []) := by
    obtain ⟨c, hc, hhead⟩ := Value.head?_write hv
    have hmark : ∀ c ∈ Scanner.signs, c ≠ CodePoint.byteOrderMark := by decide
    rw [List.append_nil]
    refine Scanner.at_start ?_
    rw [hhead]
    simpa using hmark c hc
  obtain ⟨k, ⟨n, hlength, hfinish⟩, hend⟩ := Scanner.passes v hv _ _ _ _ _ hstart
  have hfuel : (Json.write v).length + 2 = n + ((Json.write v).length + 1 - n + 1) := by
    rw [hstart.rest, List.append_nil] at hlength
    omega
  rw [TokenStream.ofText, hfuel, hfinish, Scanner.finish_at_end hend]
  simp

end PageTree
