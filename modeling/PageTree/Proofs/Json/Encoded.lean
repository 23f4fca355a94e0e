import PageTree.Proofs.Json.RoundTrip
import PageTree.Proofs.Utf8.RoundTrip

/-!
# JSON in UTF-8

Escapes bring no surrogate into a JSON text, so a value in whose way nothing stands can be written in UTF-8
as well, and `decode?_encode?_write` reads it back from its bytes.
-/

set_option autoImplicit false

namespace PageTree.Json

/-! ## Texts -/

/-- No hexadecimal digit is a surrogate. -/
theorem isSurrogate_hexDigit (n : Nat) : (CodePoint.hexDigit n).isSurrogate = false := by
  unfold CodePoint.hexDigit
  split <;> exact CodePoint.isSurrogate_ofChar _

/-- An escape holds no surrogate, and what stands for itself is none. -/
theorem hasSurrogate_writePoint {c : CodePoint} (h : c.isSurrogate = false) :
    Text.hasSurrogate (writePoint c) = false := by
  have hhex : Text.hasSurrogate
      (text "\\u00" ++ [CodePoint.hexDigit (c.val / 16), CodePoint.hexDigit c.val]) = false := by
    rw [Text.hasSurrogate_append, Text.hasSurrogate_text]
    simp [Text.hasSurrogate, isSurrogate_hexDigit]
  have hself : Text.hasSurrogate [c] = false := by
    simp [Text.hasSurrogate, h]
  unfold writePoint
  -- The code points with an escape of their own, then the other control codes, then what stands for itself.
  repeat (split; · exact Text.hasSurrogate_text _)
  split
  · exact hhex
  · exact hself

/-- A text without surrogates is written without surrogates. -/
theorem hasSurrogate_writeText {s : Text} (h : s.hasSurrogate = false) :
    (writeText s).hasSurrogate = false := by
  have hpoints : Text.hasSurrogate (s.flatMap writePoint) = false := by
    induction s with
    | nil => rfl
    | cons c rest ih =>
        simp only [Text.hasSurrogate, List.any_cons, Bool.or_eq_false_iff] at h
        rw [List.flatMap_cons, Text.hasSurrogate_append, hasSurrogate_writePoint h.1, ih h.2]
        rfl
  unfold writeText
  rw [Text.hasSurrogate_append, Text.hasSurrogate_append, hpoints, Text.hasSurrogate_text]
  rfl

/-- Brackets and commas bring no surrogate into the texts between them. -/
theorem hasSurrogate_bracketed (before behind : String) {pieces : List Text}
    (h : ∀ s ∈ pieces, s.hasSurrogate = false) :
    Text.hasSurrogate (text before ++ Text.join (text ",") pieces ++ text behind) = false := by
  rw [Text.hasSurrogate_append, Text.hasSurrogate_append, Text.hasSurrogate_text,
    Text.hasSurrogate_text, Text.hasSurrogate_join (Text.hasSurrogate_text ",") h]
  rfl

/-! ## Values -/

mutual

/-- The JSON form of a value in whose way nothing stands holds no surrogate. -/
theorem hasSurrogate_write : (room : Nat) → (v : Value) → Faithful v → obstacle? room v = none →
    (write v).hasSurrogate = false
  | _, .null, _, _ => Text.hasSurrogate_text _
  | _, .bool _, _, _ => Text.hasSurrogate_text _
  | _, .int n, _, _ => Text.hasSurrogate_ofInt n
  | _, .float _, hfaithful, _ => hfaithful.elim
  | _, .str _, _, hplain => hasSurrogate_writeText (textObstacle?_eq_none.mp hplain)
  | room + 1, .array items, hfaithful, hplain =>
      hasSurrogate_bracketed _ _ (hasSurrogate_writeItems room items hfaithful hplain)
  | room + 1, .object members, hfaithful, hplain =>
      hasSurrogate_bracketed _ _ (hasSurrogate_writeMembers room members hfaithful.2 hplain)
  | _, .foreign _, _, _ => Text.hasSurrogate_text _

/-- The JSON forms of items in whose way nothing stands hold no surrogate. -/
theorem hasSurrogate_writeItems : (room : Nat) → (items : List Value) → FaithfulItems items →
    itemObstacle? room items = none → ∀ s ∈ writeItems items, s.hasSurrogate = false
  | _, [], _, _ => by simp [writeItems]
  | room, v :: rest, hfaithful, hplain => by
      simp only [FaithfulItems] at hfaithful
      simp only [itemObstacle?, Option.or_eq_none_iff] at hplain
      intro s hs
      rcases List.mem_cons.mp hs with rfl | hs
      · exact hasSurrogate_write room v hfaithful.1 hplain.1
      · exact hasSurrogate_writeItems room rest hfaithful.2 hplain.2 s hs

/-- The JSON forms of members in whose way nothing stands hold no surrogate. -/
theorem hasSurrogate_writeMembers : (room : Nat) → (members : List (Text × Value)) →
    FaithfulMembers members → memberObstacle? room members = none →
    ∀ s ∈ writeMembers members, s.hasSurrogate = false
  | _, [], _, _ => by simp [writeMembers]
  | room, (key, v) :: rest, hfaithful, hplain => by
      simp only [FaithfulMembers] at hfaithful
      simp only [memberObstacle?, Option.or_eq_none_iff] at hplain
      obtain ⟨hkey, hvalue, hrest⟩ := hplain
      intro s hs
      rcases List.mem_cons.mp hs with rfl | hs
      · rw [Text.hasSurrogate_append, Text.hasSurrogate_append,
          hasSurrogate_writeText (textObstacle?_eq_none.mp hkey), Text.hasSurrogate_text,
          hasSurrogate_write room v hfaithful.1 hvalue]
        rfl
      · exact hasSurrogate_writeMembers room rest hfaithful.2 hrest s hs

end

/-- The JSON form of a value has a UTF-8 form, and from its bytes the value is read again. -/
theorem decode?_encode?_write (d : Dialect) {room : Nat} {v : Value} (hfaithful : Faithful v)
    (hplain : obstacle? room v = none) :
    ∃ b, Utf8.encode? (write v) = some b ∧ (Utf8.decode? b).bind (read? d) = some v := by
  have hwrite := hasSurrogate_write room v hfaithful hplain
  have hencode : Utf8.encode? (write v) = some ((write v).flatMap Utf8.unit) := by
    rw [Utf8.encode?, hwrite]
    rfl
  refine ⟨_, hencode, ?_⟩
  rw [Utf8.decode?_encode? hencode, Option.bind_some, read?_write d hfaithful hplain]

end PageTree.Json
