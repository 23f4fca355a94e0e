import PageTree.Datum
import PageTree.Proofs.Json.Encoded

/-!
# Data that JSON can hold

Data without records and without keys of their own kinds is *plain*: nothing, truth values, integers, texts,
lists, and dictionaries whose keys are texts. JSON can hold plain data, apart from integers beyond 64 bits and
texts with a surrogate in them (`IsUnwritable`), and the writer gives up where lists and dictionaries stand
too deep inside each other (`NestsBeyond`). `Datum.payload_of_isPlain` says that these are what keeps it from
being written. What is written is read as what it was.
-/

set_option autoImplicit false

namespace PageTree

/-- What a JSON text in UTF-8 is read as, when a shape is asked for. -/
def Shape.ofPayload {α : Type} (shape : Shape α) (b : Bytes) : Except Cause α :=
  match (Utf8.decode? b).bind (Json.read? Json.strict) with
  | some v => (shape v).mapError .mismatch
  | none => .error .json

namespace Datum

/-- Nothing, truth values, integers, texts, and lists and dictionaries of such data. The keys of a dictionary
are texts, and no two are the same. -/
inductive IsPlain : Datum → Prop
  | null : IsPlain .null
  | bool (b : Bool) : IsPlain (.bool b)
  | int (n : Int) : IsPlain (.int n)
  | str (s : Text) : IsPlain (.str s)
  | list {items : List Datum} (h : ∀ d ∈ items, IsPlain d) : IsPlain (.list items)
  | dict {entries : List (Text × Datum)} (hkeys : (entries.map Prod.fst).Nodup)
      (h : ∀ e ∈ entries, IsPlain e.2) : IsPlain (.dict (entries.map fun e => (.str e.1, e.2)))

/-- An integer beyond 64 bits stands somewhere in a datum, or a surrogate in one of its texts or keys. -/
inductive IsUnwritable : Datum → Prop
  | small {n : Int} (h : n < -2 ^ 63) : IsUnwritable (.int n)
  | large {n : Int} (h : 2 ^ 64 - 1 < n) : IsUnwritable (.int n)
  | str {s : Text} (h : s.hasSurrogate = true) : IsUnwritable (.str s)
  | item {items : List Datum} {d : Datum} (hmem : d ∈ items) (h : IsUnwritable d) :
      IsUnwritable (.list items)
  | key {entries : List (Key × Datum)} {s : Text} {d : Datum} (hmem : (.str s, d) ∈ entries)
      (h : s.hasSurrogate = true) : IsUnwritable (.dict entries)
  | entry {entries : List (Key × Datum)} {key : Key} {d : Datum} (hmem : (key, d) ∈ entries)
      (h : IsUnwritable d) : IsUnwritable (.dict entries)

/-- More lists and dictionaries stand inside each other in a datum than there is room for. -/
inductive NestsBeyond : Nat → Datum → Prop
  | list {items : List Datum} : NestsBeyond 0 (.list items)
  | dict {entries : List (Key × Datum)} : NestsBeyond 0 (.dict entries)
  | item {room : Nat} {items : List Datum} {d : Datum} (hmem : d ∈ items) (h : NestsBeyond room d) :
      NestsBeyond (room + 1) (.list items)
  | entry {room : Nat} {entries : List (Key × Datum)} {key : Key} {d : Datum} (hmem : (key, d) ∈ entries)
      (h : NestsBeyond room d) : NestsBeyond (room + 1) (.dict entries)

mutual

/-- The datum that a value is. -/
def ofValue : Value → Datum
  | .null => .null
  | .bool b => .bool b
  | .int n => .int n
  | .float x => .float x
  | .str s => .str s
  | .array items => .list (ofValues items)
  | .object members => .dict (ofMembers members)
  | .foreign _ => .object

/-- The data that values are. -/
def ofValues : List Value → List Datum
  | [] => []
  | v :: rest => ofValue v :: ofValues rest

/-- The entries that members are. -/
def ofMembers : List (Text × Value) → List (Key × Datum)
  | [] => []
  | (key, v) :: rest => (.str key, ofValue v) :: ofMembers rest

end

/-! ## The values of plain data -/

/-- The values of data are those of each. -/
theorem toValues_eq_map (items : List Datum) : toValues items = items.map toValue := by
  induction items with
  | nil => rfl
  | cons d rest ih => rw [toValues, ih, List.map_cons]

/-- The values of entries with texts as keys are those of each, under the same keys. -/
theorem toEntries_eq_map (entries : List (Text × Datum)) :
    toEntries (entries.map fun e => (.str e.1, e.2)) =
      entries.map fun e => (.str e.1, e.2.toValue) := by
  induction entries with
  | nil => rfl
  | cons e rest ih => rw [List.map_cons, toEntries, ih, List.map_cons]

/-- The data of values are those of each. -/
theorem ofValues_eq_map (values : List Value) : ofValues values = values.map ofValue := by
  induction values with
  | nil => rfl
  | cons v rest ih => rw [ofValues, ih, List.map_cons]

/-- The entries of members are those of each, under the same keys. -/
theorem ofMembers_eq_map (members : List (Text × Value)) :
    ofMembers members = members.map fun m => (.str m.1, ofValue m.2) := by
  induction members with
  | nil => rfl
  | cons m rest ih => rw [ofMembers, ih, List.map_cons]

/-- A key that is new to a dictionary comes last in it. -/
theorem keySet_of_notMem {key : Text} (v : Value) {entries : List (Text × Value)}
    (h : key ∉ entries.map Prod.fst) :
    Key.set (.str key) v (entries.map fun e => (.str e.1, e.2)) =
      (entries ++ [(key, v)]).map fun e => (.str e.1, e.2) := by
  induction entries with
  | nil => rfl
  | cons e rest ih =>
      simp only [List.map_cons, List.mem_cons, not_or] at h
      have hsame : Key.same (.str e.1) (.str key) = false := by
        simpa [Key.same] using Ne.symm h.1
      simp [Key.set, hsame, ih h.2]

/-- Entries of which no key occurs twice make a dictionary as they are given. -/
theorem foldl_keySet {entries : List (Text × Value)} (h : (entries.map Prod.fst).Nodup) :
    (entries.map fun e => (Key.str e.1, e.2)).foldl (fun es e => Key.set e.1 e.2 es) [] =
      entries.map fun e => (.str e.1, e.2) := by
  induction entries using List.reverseRecOn with
  | nil => rfl
  | append_singleton front e ih =>
      rw [List.map_append, List.nodup_append] at h
      obtain ⟨hfront, -, hdisjoint⟩ := h
      rw [List.map_append, List.foldl_append, ih hfront, ← List.map_append]
      exact keySet_of_notMem e.2 fun hmem => hdisjoint e.1 hmem e.1 (by simp) rfl

/-- A dictionary in which no key occurs twice is written with all of its entries. -/
theorem toValue_dict {entries : List (Text × Datum)} (h : (entries.map Prod.fst).Nodup) :
    toValue (.dict (entries.map fun e => (.str e.1, e.2))) =
      .object (entries.map fun e => (e.1, e.2.toValue)) := by
  have hkeys : ((entries.map fun e => (e.1, e.2.toValue)).map Prod.fst).Nodup := by
    rw [List.map_map]
    exact h
  have hdistinct := foldl_keySet hkeys
  have hgiven := Json.ofList_of_nodup hkeys
  simp only [List.map_map, Function.comp_def] at hdistinct
  simp only [toValue, toEntries_eq_map, hdistinct, List.map_map, Function.comp_def, Key.spelling, hgiven]

/-! ## Plain data -/

variable {d : Datum}

/-- An integer fits into 64 bits just if it is neither too small for a signed nor too large for an unsigned
one. -/
theorem fits64_iff {n : Int} : Json.fits64 n = true ↔ ¬ (n < -2 ^ 63 ∨ 2 ^ 64 - 1 < n) := by
  simp only [Json.fits64, Bool.and_eq_true, decide_eq_true_eq]
  omega

/-- The value of plain data has no floating-point numbers, and no key occurs twice in it. -/
theorem IsPlain.faithful (h : d.IsPlain) : Json.Faithful d.toValue := by
  induction h with
  | list h ih =>
      rw [toValue, toValues_eq_map]
      simp only [Json.Faithful, Json.faithfulItems_iff, List.forall_mem_map]
      exact ih
  | dict hkeys h ih =>
      rw [toValue_dict hkeys]
      simp only [Json.Faithful, Json.faithfulMembers_iff, List.forall_mem_map, List.map_map]
      exact ⟨hkeys, ih⟩
  | _ => trivial

/-- Plain data is what its value is. -/
theorem IsPlain.ofValue_toValue (h : d.IsPlain) : ofValue d.toValue = d := by
  induction h with
  | list h ih =>
      rw [toValue, toValues_eq_map, ofValue, ofValues_eq_map, List.map_map]
      exact congrArg Datum.list (List.map_congr_left ih |>.trans (List.map_id _))
  | dict hkeys h ih =>
      rw [toValue_dict hkeys, ofValue, ofMembers_eq_map, List.map_map]
      refine congrArg Datum.dict (List.map_congr_left fun e he => ?_)
      simp [ih e he]
  | _ => rfl

/-! ### What JSON cannot hold -/

/-- An integer is unwritable just if it lies beyond 64 bits. -/
theorem isUnwritable_int_iff {n : Int} : (Datum.int n).IsUnwritable ↔ n < -2 ^ 63 ∨ 2 ^ 64 - 1 < n := by
  constructor
  · rintro (h | h)
    · exact .inl h
    · exact .inr h
  · rintro (h | h)
    · exact .small h
    · exact .large h

/-- A text is unwritable just if it holds a surrogate. -/
theorem isUnwritable_str_iff {s : Text} : (Datum.str s).IsUnwritable ↔ s.hasSurrogate = true := by
  constructor
  · intro h
    cases h with
    | str h => exact h
  · exact .str

/-- A list is unwritable just if one of its items is. -/
theorem isUnwritable_list_iff {items : List Datum} :
    (Datum.list items).IsUnwritable ↔ ∃ d ∈ items, d.IsUnwritable := by
  constructor
  · intro h
    cases h with
    | item hmem h => exact ⟨_, hmem, h⟩
  · rintro ⟨d, hmem, h⟩
    exact .item hmem h

/-- A dictionary is unwritable just if a surrogate stands in one of its keys or one of its values is
unwritable. -/
theorem isUnwritable_dict_iff {entries : List (Text × Datum)} :
    (Datum.dict (entries.map fun e => (.str e.1, e.2))).IsUnwritable ↔
      ∃ e ∈ entries, e.1.hasSurrogate = true ∨ e.2.IsUnwritable := by
  constructor
  · intro h
    cases h with
    | key hmem h =>
        obtain ⟨e, he, heq⟩ := List.mem_map.mp hmem
        cases heq
        exact ⟨e, he, .inl h⟩
    | entry hmem h =>
        obtain ⟨e, he, heq⟩ := List.mem_map.mp hmem
        cases heq
        exact ⟨e, he, .inr h⟩
  · rintro ⟨e, he, h | h⟩
    · exact .key (List.mem_map_of_mem he) h
    · exact .entry (List.mem_map_of_mem he) h

/-- Lists nest beyond one more than some item does. -/
theorem nestsBeyond_list_iff {room : Nat} {items : List Datum} :
    NestsBeyond (room + 1) (.list items) ↔ ∃ d ∈ items, NestsBeyond room d := by
  constructor
  · intro h
    cases h with
    | item hmem h => exact ⟨_, hmem, h⟩
  · rintro ⟨d, hmem, h⟩
    exact .item hmem h

/-- Dictionaries nest beyond one more than some entry does. -/
theorem nestsBeyond_dict_iff {room : Nat} {entries : List (Text × Datum)} :
    NestsBeyond (room + 1) (.dict (entries.map fun e => (.str e.1, e.2))) ↔
      ∃ e ∈ entries, NestsBeyond room e.2 := by
  constructor
  · intro h
    cases h with
    | entry hmem h =>
        obtain ⟨e, he, heq⟩ := List.mem_map.mp hmem
        cases heq
        exact ⟨e, he, h⟩
  · rintro ⟨e, he, h⟩
    exact .entry (List.mem_map_of_mem he) h

/-- Something stands in the way of plain data just if JSON cannot hold it or the data nests too deep. -/
theorem IsPlain.obstacle?_eq_none (h : d.IsPlain) (room : Nat) :
    Json.obstacle? room d.toValue = none ↔ ¬ d.IsUnwritable ∧ ¬ d.NestsBeyond room := by
  induction h generalizing room with
  | null => exact ⟨fun _ => ⟨nofun, nofun⟩, fun _ => rfl⟩
  | bool b => exact ⟨fun _ => ⟨nofun, nofun⟩, fun _ => rfl⟩
  | int n =>
      rw [isUnwritable_int_iff, ← fits64_iff, and_iff_left (by nofun)]
      simp [toValue, Json.obstacle?]
  | str s =>
      rw [isUnwritable_str_iff, and_iff_left (by nofun)]
      simp [toValue, Json.obstacle?, Json.textObstacle?_eq_none]
  | list h ih =>
      rw [toValue, toValues_eq_map]
      cases room with
      | zero => exact ⟨nofun, fun hfree => absurd .list hfree.2⟩
      | succ room =>
          rw [isUnwritable_list_iff, nestsBeyond_list_iff, Json.obstacle?, Json.itemObstacle?_eq_none]
          simp only [List.forall_mem_map, not_exists, not_and, ← forall₂_and]
          exact forall₂_congr fun d hd => ih d hd room
  | dict hkeys h ih =>
      rw [toValue_dict hkeys]
      cases room with
      | zero => exact ⟨nofun, fun hfree => absurd .dict hfree.2⟩
      | succ room =>
          rw [isUnwritable_dict_iff, nestsBeyond_dict_iff, Json.obstacle?, Json.memberObstacle?_eq_none]
          simp only [List.forall_mem_map, not_exists, not_and, not_or, Bool.not_eq_true, ← forall₂_and,
            and_assoc]
          exact forall₂_congr fun e he => and_congr_right fun _ => ih e he room

/-! ## Payloads -/

variable {p : Text}

/-- A datum is written just if nothing stands in the way of its value, and as the JSON form of the value. -/
theorem payload_eq_ok :
    d.payload = .ok p ↔
      Json.obstacle? Json.maxNesting d.toValue = none ∧ Json.write d.toValue = p := by
  unfold Datum.payload PageTree.payload Json.print
  cases Json.obstacle? Json.maxNesting d.toValue <;> simp

/-- A datum is refused just if something stands in the way of its value, with the failure that names its kind
and what it is. -/
theorem payload_eq_error {f : Failure} :
    d.payload = .error f ↔
      ∃ o, Json.obstacle? Json.maxNesting d.toValue = some o ∧ .payloadRefused d.kind o = f := by
  unfold Datum.payload PageTree.payload Json.print
  cases Json.obstacle? Json.maxNesting d.toValue <;> simp

/-- A payload between brackets is read as a list of the one value that was written. -/
theorem ofPayload_bracketed (hfaithful : Json.Faithful d.toValue) (h : d.payload = .ok p) :
    ∃ b, Utf8.encode? (text "[" ++ p ++ text "]") = some b ∧
      Shape.ofPayload (.list .any) b = .ok [d.toValue] := by
  obtain ⟨hplain, rfl⟩ := payload_eq_ok.mp h
  -- The brackets are one more array, for which the writer may have no room. The reader does not mind.
  have hbracketed : Json.obstacle? (Json.maxNesting + 1) (.array [d.toValue]) = none := by
    simp [Json.obstacle?, Json.itemObstacle?, hplain]
  obtain ⟨b, hencode, hread⟩ := Json.decode?_encode?_write Json.strict (v := .array [d.toValue])
    ⟨hfaithful, trivial⟩ hbracketed
  refine ⟨b, hencode, ?_⟩
  rw [Shape.ofPayload, hread]
  rfl

/-- Plain data is refused just if JSON cannot hold it or more than 255 lists and dictionaries stand inside each
other, and always with the failure that says so. If it is written, then between brackets it is read as a list
that holds the same data and nothing else. -/
theorem payload_of_isPlain (h : d.IsPlain) :
    ((∃ f, d.payload = .error f) ↔ d.IsUnwritable ∨ d.NestsBeyond Json.maxNesting) ∧
    (∀ f, d.payload = .error f → ∃ o, f = .payloadRefused d.kind o) ∧
    ∀ p, d.payload = .ok p → ∃ b v, Utf8.encode? (text "[" ++ p ++ text "]") = some b ∧
      Shape.ofPayload (.list .any) b = .ok [v] ∧ ofValue v = d := by
  refine ⟨?_, fun f hf => ?_, fun p hp => ?_⟩
  · have hfound : d.IsUnwritable ∨ d.NestsBeyond Json.maxNesting ↔
        ∃ o, Json.obstacle? Json.maxNesting d.toValue = some o := by
      rw [← Option.ne_none_iff_exists', ne_eq, h.obstacle?_eq_none, ← not_or, not_not]
    simp only [hfound, payload_eq_error]
    exact ⟨fun ⟨_, o, ho, _⟩ => ⟨o, ho⟩, fun ⟨o, ho⟩ => ⟨_, o, ho, rfl⟩⟩
  · obtain ⟨o, -, rfl⟩ := payload_eq_error.mp hf
    exact ⟨o, rfl⟩
  · obtain ⟨b, hencode, hread⟩ := ofPayload_bracketed h.faithful hp
    exact ⟨b, _, hencode, hread, h.ofValue_toValue⟩

/-- An integer in a list under a key that is a mark. -/
def markedInteger (n : Int) : Datum := .dict [(.str (text "\""), .list [.bool true, .null, .int n])]

/-- The marked integer is plain, however large it is. -/
theorem markedInteger_isPlain (n : Int) : (markedInteger n).IsPlain := by
  refine @IsPlain.dict [(text "\"", .list [.bool true, .null, .int n])] (by simp) ?_
  simp only [List.forall_mem_singleton]
  refine .list ?_
  simp [IsPlain.bool, IsPlain.null, IsPlain.int]

/-- The largest integer that is written, and the next one, which is not. -/
theorem largest_integer_is_written :
    (markedInteger (2 ^ 64 - 1)).IsPlain ∧ (markedInteger (2 ^ 64)).IsPlain ∧
    (∃ p b v, (markedInteger (2 ^ 64 - 1)).payload = .ok p ∧
      Utf8.encode? (text "[" ++ p ++ text "]") = some b ∧
      Shape.ofPayload (.list .any) b = .ok [v] ∧ ofValue v = markedInteger (2 ^ 64 - 1)) ∧
    ∃ f, (markedInteger (2 ^ 64)).payload = .error f := by
  have hwritten : (markedInteger (2 ^ 64 - 1)).payload =
      .ok (Json.write (markedInteger (2 ^ 64 - 1)).toValue) := payload_eq_ok.mpr ⟨rfl, rfl⟩
  have hread := payload_of_isPlain (markedInteger_isPlain (2 ^ 64 - 1))
  have hrefused := payload_of_isPlain (markedInteger_isPlain (2 ^ 64))
  obtain ⟨b, v, hencode, hvalue, hdata⟩ := hread.2.2 _ hwritten
  refine ⟨markedInteger_isPlain _, markedInteger_isPlain _, ⟨_, b, v, hwritten, hencode, hvalue, hdata⟩, ?_⟩
  apply hrefused.1.mpr
  exact .inl (.entry List.mem_cons_self (.item (d := .int (2 ^ 64)) (by simp) (.large (by decide))))

/-- Nothing, in as many lists as are asked for. -/
def nestedList : Nat → Datum
  | 0 => .null
  | n + 1 => .list [nestedList n]

/-- Lists inside each other are plain, however many. -/
theorem nestedList_isPlain (n : Nat) : (nestedList n).IsPlain := by
  induction n with
  | zero => exact .null
  | succ n ih => exact .list (by simpa using ih)

/-- JSON can hold lists inside each other, however many. -/
theorem nestedList_not_isUnwritable (n : Nat) : ¬ (nestedList n).IsUnwritable := by
  induction n with
  | zero => nofun
  | succ n ih =>
      rw [nestedList, isUnwritable_list_iff]
      simpa using ih

/-- Lists inside each other stand in the way just if there is no room for all of them. -/
theorem obstacle?_nestedList (n room : Nat) :
    Json.obstacle? room (nestedList n).toValue = if n ≤ room then none else some .nesting := by
  induction n generalizing room with
  | zero => rfl
  | succ n ih =>
      rw [nestedList, toValue]
      cases room with
      | zero => rfl
      | succ room =>
          rw [toValues, toValues, Json.obstacle?, Json.itemObstacle?, Json.itemObstacle?, Option.or_none, ih]
          simp only [Nat.add_le_add_iff_right]

/-- JSON can hold 256 lists inside each other, and they are refused all the same. -/
theorem deep_list_is_refused :
    (nestedList 256).IsPlain ∧ ¬ (nestedList 256).IsUnwritable ∧
      (nestedList 256).payload = .error (.payloadRefused (text "list") .nesting) := by
  refine ⟨nestedList_isPlain 256, nestedList_not_isUnwritable 256, ?_⟩
  rw [payload_eq_error]
  exact ⟨.nesting, obstacle?_nestedList 256 Json.maxNesting, rfl⟩

end Datum

end PageTree
