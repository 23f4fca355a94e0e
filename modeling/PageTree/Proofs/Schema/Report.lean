import PageTree.Proofs.Schema
import PageTree.Proofs.Value

/-!
# What is reported of a value that is refused

`Report` says which leaves the report on a value has, and in which order, without a word about how the value
is read. Three rules alternate on the way down: a record has the leaves of all its fields, a list only those
of its first bad item, and a value that cannot even be asked for a name has one leaf in the place of a record.

`Record.shape_refuses_iff` ties the reading of records to it: a mismatch comes out just if it is the one
that `Report` describes. It is put together from one statement about each way of reading (`Agrees`), and
goes down through the pages below a page by the parts of the value.
-/

set_option autoImplicit false

namespace PageTree

/-! ## Reports -/

/-- A name can be found in a value that is no object: as a part of a text, or as an item. -/
inductive Mentions (name : Text) : Value → Prop
  | part {s : Text} (h : name <:+: s) : Mentions name (.str s)
  | item {items : List Value} (h : .str name ∈ items) : Mentions name (.array items)
  | inSet {texts : List Text} (h : name ∈ texts) : Mentions name (.foreign (.set texts))
  | inTuple {texts : List Text} (h : name ∈ texts) : Mentions name (.foreign (.tuple texts))

/-- A value that has neither members nor parts nor items cannot be asked for a name. -/
inductive Nameless : Value → Prop
  | null : Nameless .null
  | bool (b : Bool) : Nameless (.bool b)
  | int (n : Int) : Nameless (.int n)
  | float (x : Binary64) : Nameless (.float x)
  | date : Nameless (.foreign .date)
  | datetime : Nameless (.foreign .datetime)
  | bytes : Nameless (.foreign .bytes)
  | real : Nameless (.foreign .real)
  | object : Nameless (.foreign .object)

/-- Some field of a record may be left out. -/
def Record.HasOptional (r : Record) : Prop := ∃ f ∈ r.fields, f.isRequired = false

mutual

/-- The leaves of the report on a value. There are none if the value is what is asked for. -/
inductive Report : Schema → Value → List Leaf → Prop
  | text (s : Text) : Report .text (.str s) []
  | notText {v : Value} (h : ∀ s, v ≠ .str s) : Report .text v [⟨[], .notText v.kind⟩]
  | null : Report .optionalText .null []
  | notNull {v : Value} {leaves : List Leaf} (hnull : v ≠ .null) (h : Report .text v leaves) :
      Report .optionalText v leaves
  | choice {words : List Text} {s : Text} (h : s ∈ words) : Report (.choice words) (.str s) []
  | noChoice {words : List Text} {v : Value} (h : ∀ s ∈ words, v ≠ .str s) :
      Report (.choice words) v [⟨[], .noChoice⟩]
  | items {item : Schema} {items : List Value} (h : ∀ v ∈ items, Report item v []) :
      Report (.list item) (.array items) []
  | badItem {item : Schema} {before after : List Value} {v : Value} {leaves : List Leaf}
      (hbefore : ∀ w ∈ before, Report item w []) (hv : Report item v leaves) (hbad : leaves ≠ []) :
      Report (.list item) (.array (before ++ v :: after)) leaves
  | notArray {item : Schema} {v : Value} (h : ∀ items, v ≠ .array items) :
      Report (.list item) v [⟨[], .notArray v.kind⟩]
  | nameless {r : Record} {v : Value} (hoptional : r.HasOptional) (h : Nameless v) :
      Report (.record r) v [⟨[], .noMembers⟩]
  | fields {r : Record} {v : Value} {leaves : List Leaf} (hnamed : r.HasOptional → ¬ Nameless v)
      (h : Reports r.fields v leaves) : Report (.record r) v leaves

/-- The leaves of the report on the fields of a record, one after the other. -/
inductive Reports : List Record.Field → Value → List Leaf → Prop
  | nil (v : Value) : Reports [] v []
  | cons {f : Record.Field} {fs : List Record.Field} {v : Value} {leaves others : List Leaf}
      (hfirst : FieldReport f v leaves) (hrest : Reports fs v others) :
      Reports (f :: fs) v (leaves ++ others)

/-- The leaves of the report on one field. -/
inductive FieldReport : Record.Field → Value → List Leaf → Prop
  | present {f : Record.Field} {members : Members} {v : Value} {leaves : List Leaf}
      (hfind : Members.find? f.name members = some v) (h : Report f.schema v leaves) :
      FieldReport f (.object members) (leaves.map (Leaf.under f.name))
  | missing {f : Record.Field} {members : Members} (hfind : Members.find? f.name members = none)
      (hrequired : f.isRequired = true) : FieldReport f (.object members) [⟨[f.name], .missing f.name⟩]
  | absent {f : Record.Field} {members : Members} (hfind : Members.find? f.name members = none)
      (hoptional : f.isRequired = false) : FieldReport f (.object members) []
  | unreachable {f : Record.Field} {v : Value} (hobject : ∀ members, v ≠ .object members)
      (hasked : f.isRequired = true ∨ Mentions f.name v) : FieldReport f v [⟨[f.name], .noMembers⟩]
  | notAsked {f : Record.Field} {v : Value} (hobject : ∀ members, v ≠ .object members)
      (hoptional : f.isRequired = false) (h : ¬ Mentions f.name v) : FieldReport f v []

end

/-- The words for a misfit, where there are any. -/
inductive Misfit.IsWorded : Misfit → Option Text → Prop
  | missing (name : Text) : IsWorded (.missing name) (some name)
  | notText (kind : Text) : IsWorded (.notText kind) (some (text "expected: string; got: " ++ kind))
  | notArray (kind : Text) : IsWorded (.notArray kind) (some (text "expected: array; got: " ++ kind))
  | noMembers : IsWorded .noMembers none
  | noChoice : IsWorded .noChoice none

/-- A mismatch is the refusal of a value in the place of a record: it has the leaves of the report, and it
is a misfit of its own just if the value cannot be asked for the optional fields. -/
structure Mismatch.Refuses (m : Mismatch) (r : Record) (v : Value) : Prop where
  isReport : Report (.record r) v m.leaves
  rejects : m.leaves ≠ []
  single : (∃ misfit, m = .single misfit) ↔ r.HasOptional ∧ Nameless v
  worded : ∀ leaf ∈ m.leaves, leaf.misfit.IsWorded leaf.misfit.detail?

/-! ## Leaves that a reading collects -/

section Leaves

variable {α β : Type} {name : Text}

/-- The leaves of what a reading yields. -/
def reported : Except Mismatch α → List Leaf
  | .ok _ => []
  | .error m => m.leaves

/-- The leaves that fields yield. -/
def Collected.leaves : Collected α → List Leaf
  | .ok _ => []
  | .error leaves => leaves

/-- The leaves of two fields are those of the first and then those of the second. -/
theorem Collected.leaves_both (x : Collected α) (y : Collected β) :
    (x.both y).leaves = x.leaves ++ y.leaves := by
  cases x <;> cases y <;> simp [Collected.both, Collected.leaves]

/-- The leaves of a field are those of its value, under the name of the field. -/
theorem Collected.leaves_under (x : Except Mismatch α) :
    (Collected.under name x).leaves = (reported x).map (Leaf.under name) := by
  cases x <;> rfl

/-- What is reported of a record are the leaves of its fields. -/
theorem Collected.reported_toRecord (make : α → β) (x : Collected α) :
    reported (x.toRecord make) = x.leaves := by
  cases x <;> rfl

end Leaves

/-! ## Ways of reading -/

section Agreement

variable {α β : Type} {s : Schema} {shape : Shape α} {v : Value} {f : Record.Field}
  {fs : List Record.Field} {x : Collected α} {y : Collected β}

/-- A value is read as the report says: the leaves are those of the report, and a value without leaves is
not refused. -/
structure Agrees (s : Schema) (shape : Shape α) (v : Value) : Prop where
  report : ∀ leaves, Report s v leaves ↔ reported (shape v) = leaves
  rejects : ∀ m, shape v = .error m → m.leaves ≠ []

/-- A value is read as a record as the report says, and it is a misfit of its own just if it cannot be asked
for the optional fields. -/
structure RecordAgrees (r : Record) (shape : Shape α) (v : Value) : Prop
    extends Agrees (.record r) shape v where
  single : (∃ misfit, shape v = .error (.single misfit)) ↔ r.HasOptional ∧ Nameless v

/-- Fields are read as the report says. -/
structure AgreesOn (fs : List Record.Field) (v : Value) (x : Collected α) : Prop where
  reports : ∀ leaves, Reports fs v leaves ↔ x.leaves = leaves
  rejects : x ≠ .error []

/-- A field is read as the report says. -/
structure AgreesAt (f : Record.Field) (v : Value) (x : Collected α) : Prop where
  report : ∀ leaves, FieldReport f v leaves ↔ x.leaves = leaves
  rejects : x ≠ .error []

/-- The reading of texts agrees with the report. -/
theorem text_agrees (v : Value) : Agrees .text Shape.text v := by
  constructor
  · intro leaves
    constructor
    · intro h
      cases h with
      | text s => rfl
      | notText h =>
          cases v with
          | str s => exact absurd rfl (h s)
          | _ => rfl
    · rintro rfl
      cases v with
      | str s => exact .text s
      | _ => exact .notText nofun
  · intro m h
    cases v <;> cases h <;> simp [Mismatch.leaves]

/-- The reading of optional texts agrees with the report. -/
theorem optionalText_agrees (v : Value) : Agrees .optionalText Shape.optionalText v := by
  have hreported : v ≠ .null → reported (Shape.optionalText v) = reported (Shape.text v) := by
    intro hnull
    cases v with
    | null => exact absurd rfl hnull
    | _ => rfl
  constructor
  · intro leaves
    constructor
    · intro h
      cases h with
      | null => rfl
      | notNull hnull h => exact (hreported hnull).trans (((text_agrees v).report leaves).mp h)
    · rintro rfl
      by_cases hnull : v = .null
      · subst hnull
        exact .null
      · exact .notNull hnull (((text_agrees v).report _).mpr (hreported hnull).symm)
  · intro m h
    cases v <;> cases h <;> simp [Mismatch.leaves]

/-- The reading of a choice agrees with the report. -/
theorem choice_agrees (choices : List (Text × α)) (v : Value) :
    Agrees (.choice (choices.map Prod.fst)) (Shape.choice choices) v := by
  -- A text is found among the choices just if it is one of the words.
  have hfind : ∀ t, (∃ c, choices.find? (·.1 == t) = some c) ↔ t ∈ choices.map Prod.fst := by
    intro t
    rw [← Option.isSome_iff_exists, List.find?_isSome]
    simp
  have hword : ∀ t, t ∈ choices.map Prod.fst → reported (Shape.choice choices (.str t)) = [] := by
    intro t ht
    obtain ⟨c, hc⟩ := (hfind t).mpr ht
    simp [Shape.choice, hc, reported]
  have hother : ∀ t, t ∉ choices.map Prod.fst →
      reported (Shape.choice choices (.str t)) = [⟨[], .noChoice⟩] := by
    intro t ht
    have hnone := Option.not_isSome_iff_eq_none.mp
      (mt Option.isSome_iff_exists.mp (mt (hfind t).mp ht))
    simp [Shape.choice, hnone, reported, Mismatch.leaves]
  constructor
  · intro leaves
    constructor
    · intro h
      cases h with
      | choice h => exact hword _ h
      | noChoice h =>
          cases v with
          | str t => exact hother t fun ht => h t ht rfl
          | _ => rfl
    · rintro rfl
      cases v with
      | str t =>
          by_cases ht : t ∈ choices.map Prod.fst
          · rw [hword t ht]
            exact .choice ht
          · rw [hother t ht]
            apply Report.noChoice
            rintro u hu heq
            exact ht (Value.str.inj heq ▸ hu)
      | _ => exact .noChoice nofun
  · intro m h
    have hsingle : m = .single .noChoice := by
      cases v with
      | str t =>
          simp only [Shape.choice] at h
          split at h
          · cases h
          · exact (Except.error.inj h).symm
      | _ => exact (Except.error.inj h).symm
    simp [hsingle, Mismatch.leaves]

/-! ### Lists -/

/-- The report on a list of nothing has no leaves. -/
theorem report_nil_iff {leaves : List Leaf} : Report (.list s) (.array []) leaves ↔ leaves = [] := by
  constructor
  · generalize hitems : Value.array [] = w
    intro h
    cases h with
    | items h => rfl
    | badItem hbefore hv hbad => simp at hitems
    | notArray h => exact absurd hitems.symm (h [])
  · rintro rfl
    exact .items nofun

/-- The report on an array goes on to the next item just if there is nothing to report of the first. -/
theorem report_cons_iff {rest : List Value} {leaves : List Leaf} :
    Report (.list s) (.array (v :: rest)) leaves ↔
      Report s v leaves ∧ leaves ≠ [] ∨ Report s v [] ∧ Report (.list s) (.array rest) leaves := by
  constructor
  · generalize hitems : Value.array (v :: rest) = w
    intro h
    cases h with
    | items h =>
        obtain rfl := Value.array.inj hitems
        obtain ⟨hfirst, hrest⟩ := List.forall_mem_cons.mp h
        exact .inr ⟨hfirst, .items hrest⟩
    | @badItem _ before after bad _ hbefore hbad hne =>
        have hsplit := Value.array.inj hitems
        cases before with
        | nil =>
            obtain ⟨rfl, rfl⟩ := List.cons.inj hsplit
            exact .inl ⟨hbad, hne⟩
        | cons first others =>
            obtain ⟨rfl, rfl⟩ := List.cons.inj hsplit
            obtain ⟨hfirst, hothers⟩ := List.forall_mem_cons.mp hbefore
            exact .inr ⟨hfirst, .badItem hothers hbad hne⟩
    | notArray h => exact absurd hitems.symm (h _)
  · rintro (⟨hbad, hne⟩ | ⟨hfirst, hrest⟩)
    · exact @Report.badItem s [] rest v leaves nofun hbad hne
    · generalize hitems : Value.array rest = w at hrest
      cases hrest with
      | items h =>
          obtain rfl := Value.array.inj hitems
          exact .items (List.forall_mem_cons.mpr ⟨hfirst, h⟩)
      | @badItem _ before after bad _ hbefore hbad hne =>
          obtain rfl := Value.array.inj hitems
          exact @Report.badItem s (v :: before) after bad leaves
            (List.forall_mem_cons.mpr ⟨hfirst, hbefore⟩) hbad hne
      | notArray h => exact absurd hitems.symm (h _)

/-- The elements of values are that of the first and then those of the others. -/
theorem elements_cons (v : Value) (rest : List Value) :
    Shape.elements shape (v :: rest) =
      (shape v).bind fun a => (Shape.elements shape rest).map (a :: ·) := by
  show (shape v).bind (fun a => (Shape.elements shape rest).bind fun others => .ok (a :: others)) = _
  cases shape v with
  | error m => rfl
  | ok a => cases Shape.elements shape rest <;> rfl

/-- The reading of an array agrees with the report if that of each item does. -/
theorem array_agrees {items : List Value} (h : ∀ v ∈ items, Agrees s shape v) :
    Agrees (.list s) (Shape.list shape) (.array items) := by
  induction items with
  | nil =>
      constructor
      · intro leaves
        rw [report_nil_iff]
        exact eq_comm
      · intro m h
        cases h
  | cons v rest ih =>
      obtain ⟨hfirst, hrest⟩ := List.forall_mem_cons.mp h
      replace ih := ih hrest
      have hlist : Shape.list shape (.array (v :: rest)) =
          (shape v).bind fun a => (Shape.list shape (.array rest)).map (a :: ·) := elements_cons v rest
      cases hv : shape v with
      | error m =>
          have hm := hfirst.rejects m hv
          rw [hv] at hlist
          constructor
          · intro leaves
            rw [report_cons_iff, hfirst.report, hfirst.report, hlist, hv]
            show m.leaves = leaves ∧ leaves ≠ [] ∨ m.leaves = [] ∧ _ ↔ m.leaves = leaves
            constructor
            · rintro (⟨h, -⟩ | ⟨h, -⟩)
              · exact h
              · exact absurd h hm
            · rintro rfl
              exact .inl ⟨rfl, hm⟩
          · intro m' h
            rw [hlist] at h
            cases h
            exact hm
      | ok a =>
          rw [hv] at hlist
          have hreported : reported (Shape.list shape (.array (v :: rest))) =
              reported (Shape.list shape (.array rest)) := by
            rw [hlist]
            cases Shape.list shape (.array rest) <;> rfl
          constructor
          · intro leaves
            rw [report_cons_iff, hfirst.report, hfirst.report, ih.report, hreported, hv]
            show [] = leaves ∧ leaves ≠ [] ∨ [] = [] ∧ _ ↔ _
            constructor
            · rintro (⟨h, hne⟩ | ⟨-, h⟩)
              · exact absurd h.symm hne
              · exact h
            · intro h
              exact .inr ⟨rfl, h⟩
          · intro m h
            rw [hlist] at h
            cases hothers : Shape.list shape (.array rest) with
            | error m' =>
                rw [hothers] at h
                cases h
                exact ih.rejects m hothers
            | ok others =>
                rw [hothers] at h
                cases h

/-- The reading of a list agrees with the report if that of each part of the value does. -/
theorem list_agrees (h : ∀ w ∈ v.parts, Agrees s shape w) : Agrees (.list s) (Shape.list shape) v := by
  by_cases harray : ∃ items, v = .array items
  · obtain ⟨items, rfl⟩ := harray
    exact array_agrees h
  · have hlist : Shape.list shape v = .error (.single (.notArray v.kind)) := by
      cases v with
      | array items => exact absurd ⟨items, rfl⟩ harray
      | _ => rfl
    have hreport : Report (.list s) v [⟨[], .notArray v.kind⟩] :=
      .notArray fun items hv => harray ⟨items, hv⟩
    constructor
    · intro leaves
      rw [hlist]
      constructor
      · intro h
        cases h with
        | items h => exact absurd ⟨_, rfl⟩ harray
        | badItem hbefore hv hbad => exact absurd ⟨_, rfl⟩ harray
        | notArray h => rfl
      · rintro rfl
        exact hreport
    · intro m h
      rw [hlist] at h
      cases h
      simp [Mismatch.leaves]

/-! ### Fields -/

/-- A text contains another one just if the other one stands in it without a gap. -/
theorem containsText_iff {part s : Text} : Text.containsText part s = true ↔ part <:+: s := by
  induction s with
  | nil => simp [Text.containsText]
  | cons c s ih => simp [Text.containsText, ih, List.infix_cons_iff]

/-- A name is among the texts of items just if it is an item. -/
theorem mem_texts_iff {name : Text} {items : List Value} :
    name ∈ Value.texts items ↔ .str name ∈ items := by
  have hstr : ∀ v : Value, v.asText? = some name ↔ v = .str name := by
    intro v
    cases v <;> simp [Value.asText?]
  simp [Value.texts, hstr]

/-- An object answers for its keys, every other value for what it mentions. -/
theorem mentions_iff {name : Text} (hobject : ∀ members, v ≠ .object members) :
    Shape.mentions name v = true ↔ Mentions name v := by
  cases v with
  | object members => exact absurd rfl (hobject members)
  | str s =>
      show Text.containsText name s = true ↔ _
      rw [containsText_iff]
      constructor
      · exact .part
      · intro h
        cases h with
        | part h => exact h
  | array items =>
      show (Value.texts items).contains name = true ↔ _
      rw [List.contains_iff_mem, mem_texts_iff]
      constructor
      · exact .item
      · intro h
        cases h with
        | item h => exact h
  | foreign f =>
      cases f with
      | set texts =>
          show texts.contains name = true ↔ _
          rw [List.contains_iff_mem]
          constructor
          · exact .inSet
          · intro h
            cases h with
            | inSet h => exact h
      | tuple texts =>
          show texts.contains name = true ↔ _
          rw [List.contains_iff_mem]
          constructor
          · exact .inTuple
          · intro h
            cases h with
            | inTuple h => exact h
      | _ => exact ⟨nofun, nofun⟩
  | _ => exact ⟨nofun, nofun⟩

/-- A value cannot be searched just if it is nameless. -/
theorem isSearchable_eq_false_iff : Shape.isSearchable v = false ↔ Nameless v := by
  constructor
  · intro h
    cases v with
    | foreign f => cases f <;> first | constructor | cases h
    | _ => first | constructor | cases h
  · rintro ⟨⟩ <;> rfl

/-- The leaf of a field that is asked for in a value without members. -/
theorem required_elsewhere {name : Text} (hobject : ∀ members, v ≠ .object members) :
    Shape.required name shape v = .error [⟨[name], .noMembers⟩] := by
  cases v with
  | object members => exact absurd rfl (hobject members)
  | _ => rfl

/-- A field whose member is there agrees with the report if the reading of the member does. -/
theorem field_present {members : Members} {w : Value}
    (hfind : Members.find? f.name members = some w) (h : Agrees f.schema shape w) :
    AgreesAt f (.object members) (.under f.name (shape w)) := by
  constructor
  · intro leaves
    rw [Collected.leaves_under]
    constructor
    · intro hreport
      cases hreport with
      | present hother hreport =>
          obtain rfl := Option.some.inj (hfind.symm.trans hother)
          rw [(h.report _).mp hreport]
      | _ => simp_all
    · rintro rfl
      exact .present hfind ((h.report _).mpr rfl)
  · intro herror
    cases hw : shape w with
    | ok a => simp [hw, Collected.under] at herror
    | error m => simp [hw, Collected.under, h.rejects m hw] at herror

/-- A field without a value of its own has a report of its own, and no other. -/
theorem AgreesAt.of_report (h : FieldReport f v x.leaves)
    (hunique : ∀ leaves, FieldReport f v leaves → x.leaves = leaves) (hrejects : x ≠ .error []) :
    AgreesAt f v x := by
  refine ⟨fun leaves => ⟨hunique leaves, ?_⟩, hrejects⟩
  rintro rfl
  exact h

/-- A required field whose member is not there is reported as missing. -/
theorem field_missing {members : Members} (hfind : Members.find? f.name members = none)
    (hrequired : f.isRequired = true) :
    AgreesAt f (.object members) (.error [⟨[f.name], .missing f.name⟩] : Collected α) := by
  apply AgreesAt.of_report (.missing hfind hrequired)
  · intro leaves h
    cases h <;> simp_all [Collected.leaves]
  · simp

/-- An optional field whose member is not there has no leaves. -/
theorem field_absent {members : Members} (hfind : Members.find? f.name members = none)
    (hoptional : f.isRequired = false) (a : α) : AgreesAt f (.object members) (.ok a) := by
  apply AgreesAt.of_report (.absent hfind hoptional)
  · intro leaves h
    cases h <;> simp_all [Collected.leaves]
  · simp

/-- A field that is asked for in a value without members is reported as out of reach. -/
theorem field_unreachable (hobject : ∀ members, v ≠ .object members)
    (hasked : f.isRequired = true ∨ Mentions f.name v) :
    AgreesAt f v (.error [⟨[f.name], .noMembers⟩] : Collected α) := by
  apply AgreesAt.of_report (.unreachable hobject hasked)
  · intro leaves h
    cases h <;> simp_all [Collected.leaves]
  · simp

/-- An optional field that a value without members does not mention has no leaves. -/
theorem field_notAsked (hobject : ∀ members, v ≠ .object members) (hoptional : f.isRequired = false)
    (hnot : ¬ Mentions f.name v) (a : α) : AgreesAt f v (.ok a) := by
  apply AgreesAt.of_report (.notAsked hobject hoptional hnot)
  · intro leaves h
    cases h <;> simp_all [Collected.leaves]
  · simp

/-- The reading of a required field agrees with the report. -/
theorem required_agrees (name : String) (h : ∀ w ∈ v.parts, Agrees s shape w) :
    AgreesAt (.required name s) v (Shape.required (text name) shape v) := by
  by_cases hobject : ∃ members, v = .object members
  · obtain ⟨members, rfl⟩ := hobject
    cases hfind : Members.find? (text name) members with
    | none =>
        have hread : Shape.required (text name) shape (.object members) =
            .error [⟨[text name], .missing (text name)⟩] := by
          simp [Shape.required, Shape.member, hfind, Except.bind, Collected.under, Mismatch.leaves,
            Leaf.under]
        rw [hread]
        exact field_missing (f := .required name s) hfind rfl
    | some w =>
        have hread : Shape.required (text name) shape (.object members) =
            .under (text name) (shape w) := by
          simp [Shape.required, Shape.member, hfind, Except.bind]
        rw [hread]
        exact field_present (f := .required name s) hfind (h w (Value.mem_parts_of_find? hfind))
  · have hother : ∀ members, v ≠ .object members := fun members hv => hobject ⟨members, hv⟩
    rw [required_elsewhere hother]
    exact field_unreachable hother (.inl rfl)

/-- The reading of an optional field agrees with the report. -/
theorem optional_agrees (name : String) (otherwise : α) (h : ∀ w ∈ v.parts, Agrees s shape w) :
    AgreesAt (.optional name s) v (Shape.optional (text name) otherwise shape v) := by
  by_cases hobject : ∃ members, v = .object members
  · obtain ⟨members, rfl⟩ := hobject
    rw [Shape.optional_object]
    cases hfind : Members.find? (text name) members with
    | none => exact field_absent (f := .optional name s) hfind rfl otherwise
    | some w => exact field_present (f := .optional name s) hfind (h w (Value.mem_parts_of_find? hfind))
  · have hother : ∀ members, v ≠ .object members := fun members hv => hobject ⟨members, hv⟩
    unfold Shape.optional
    split
    · next hmentions =>
        rw [required_elsewhere hother]
        exact field_unreachable hother (.inr ((mentions_iff hother).mp hmentions))
    · next hmentions =>
        exact field_notAsked hother rfl (mt (mentions_iff hother).mpr hmentions) otherwise

/-! ### Records -/

/-- A field that agrees with the report agrees as a list of one field. -/
theorem field_agrees (h : AgreesAt f v x) : AgreesOn [f] v x := by
  refine ⟨fun leaves => ?_, h.rejects⟩
  rw [← h.report]
  constructor
  · intro hreports
    cases hreports with
    | cons hfirst hrest =>
        cases hrest
        rw [List.append_nil]
        exact hfirst
  · intro hreport
    rw [← List.append_nil leaves]
    exact .cons hreport (.nil v)

/-- A field and further fields agree with the report if each of them does. -/
theorem both_agree (hfirst : AgreesAt f v x) (hrest : AgreesOn fs v y) :
    AgreesOn (f :: fs) v (x.both y) := by
  constructor
  · intro leaves
    rw [Collected.leaves_both]
    constructor
    · intro hreports
      cases hreports with
      | cons hf hfs => rw [(hfirst.report _).mp hf, (hrest.reports _).mp hfs]
    · rintro rfl
      exact .cons ((hfirst.report _).mpr rfl) ((hrest.reports _).mpr rfl)
  · intro herror
    have hnil : x.leaves ++ y.leaves = [] := by
      rw [← Collected.leaves_both, herror]
      rfl
    obtain ⟨hx, hy⟩ := List.append_eq_nil_iff.mp hnil
    cases x with
    | error left => exact hfirst.rejects (congrArg Except.error hx)
    | ok a =>
        cases y with
        | error right => exact hrest.rejects (congrArg Except.error hy)
        | ok b => cases herror

/-- Only how the value itself is read matters. -/
theorem RecordAgrees.of_eq {r : Record} {other : Shape α} (h : RecordAgrees r other v)
    (hread : shape v = other v) : RecordAgrees r shape v where
  report leaves := by rw [hread, h.report]
  rejects m hm := h.rejects m (hread ▸ hm)
  single := by rw [hread, h.single]

/-- The reading of a record agrees with the report if that of its fields does and the value can be asked for
names. -/
theorem record_agrees {r : Record} {make : β → α} (h : AgreesOn r.fields v y)
    (hnamed : r.HasOptional → ¬ Nameless v) (hread : shape v = y.toRecord make) :
    RecordAgrees r shape v where
  report leaves := by
    rw [hread, Collected.reported_toRecord, ← h.reports]
    constructor
    · intro hreport
      cases hreport with
      | nameless hoptional hv => exact absurd hv (hnamed hoptional)
      | fields _ hreports => exact hreports
    · exact .fields hnamed
  rejects m hm := by
    rw [hread] at hm
    cases y with
    | ok b => cases hm
    | error leaves =>
        cases hm
        exact fun hnil => h.rejects (congrArg Except.error hnil)
  single := by
    rw [hread]
    constructor
    · rintro ⟨misfit, hm⟩
      cases y <;> cases hm
    · rintro ⟨hoptional, hv⟩
      exact absurd hv (hnamed hoptional)

/-- A record with optional fields is searched for them first. -/
theorem searched_agrees {r : Record} (hoptional : r.HasOptional)
    (h : ¬ Nameless v → RecordAgrees r shape v) : RecordAgrees r (Shape.searched shape) v := by
  cases hsearch : Shape.isSearchable v with
  | true =>
      have hv : ¬ Nameless v := fun hv => by simp [isSearchable_eq_false_iff.mpr hv] at hsearch
      exact (h hv).of_eq (by simp [Shape.searched, hsearch])
  | false =>
      have hv : Nameless v := isSearchable_eq_false_iff.mp hsearch
      have hread : Shape.searched shape v = .error (.single .noMembers) := by
        simp [Shape.searched, hsearch]
      constructor
      · constructor
        · intro leaves
          rw [hread]
          constructor
          · intro hreport
            cases hreport with
            | nameless => rfl
            | fields hnamed => exact absurd hv (hnamed hoptional)
          · rintro rfl
            exact .nameless hoptional hv
        · intro m hm
          rw [hread] at hm
          cases hm
          simp [Mismatch.leaves]
      · rw [hread]
        exact ⟨fun _ => ⟨hoptional, hv⟩, fun _ => ⟨_, rfl⟩⟩

end Agreement

namespace Record

/-- The records with fields that may be left out are the tree, the page and the request. -/
theorem hasOptional_iff {r : Record} : r.HasOptional ↔ r = .tree ∨ r = .page ∨ r = .request := by
  cases r <;> simp [HasOptional, fields, Field.required, Field.optional]

/-- The reading of a space agrees with the report. -/
theorem space_agrees (v : Value) : RecordAgrees .space Space.shape v :=
  record_agrees (field_agrees (required_agrees "key" fun w _ => text_agrees w))
    (by simp [hasOptional_iff]) rfl

/-- The reading of an ancestor agrees with the report. -/
theorem ancestor_agrees (v : Value) : RecordAgrees .ancestor Ancestor.shape v :=
  record_agrees (field_agrees (required_agrees "id" fun w _ => text_agrees w))
    (by simp [hasOptional_iff]) rfl

/-- The reading of a type of content agrees with the report. -/
theorem contentType_agrees (v : Value) : Agrees (.choice [text "page"]) ContentType.shape v :=
  choice_agrees [(ContentType.toText .page, ContentType.page)] v

/-- The reading of a representation agrees with the report. -/
theorem representation_agrees (v : Value) :
    Agrees (.choice [text "storage"]) Representation.shape v :=
  choice_agrees [(Representation.toText .storage, Representation.storage)] v

/-- The reading of a stored text agrees with the report. -/
theorem storage_agrees (v : Value) : RecordAgrees .storage Storage.shape v := by
  refine record_agrees ?_ (by simp [hasOptional_iff]) rfl
  apply both_agree (required_agrees "value" fun w _ => text_agrees w)
  exact field_agrees (required_agrees "representation" fun w _ => representation_agrees w)

/-- The reading of a body agrees with the report. -/
theorem body_agrees (v : Value) : RecordAgrees .body Body.shape v :=
  record_agrees (field_agrees (required_agrees "storage" fun w _ => (storage_agrees w).toAgrees))
    (by simp [hasOptional_iff]) rfl

/-- The reading of a request agrees with the report. -/
theorem request_agrees (v : Value) : RecordAgrees .request PageRequest.shape v := by
  refine searched_agrees (by simp [hasOptional_iff]) fun hv => record_agrees ?_ (fun _ => hv) rfl
  apply both_agree (required_agrees "type" fun w _ => contentType_agrees w)
  apply both_agree (required_agrees "title" fun w _ => text_agrees w)
  apply both_agree (required_agrees "space" fun w _ => (space_agrees w).toAgrees)
  apply both_agree (required_agrees "body" fun w _ => (body_agrees w).toAgrees)
  apply field_agrees (optional_agrees "ancestors" [] fun w _ => ?_)
  exact list_agrees fun u _ => (ancestor_agrees u).toAgrees

/-- The pages below a page lie two steps down, in an array that is a part of the page. So the step is made for
pages and for lists of pages together. -/
theorem page_agrees (v : Value) :
    RecordAgrees .page Page.shape v ∧ Agrees (.list (.record .page)) (Shape.list Page.shape) v := by
  induction v using Value.partsInduction with
  | step v ih =>
      refine ⟨?_, list_agrees fun w hw => (ih w hw).1.toAgrees⟩
      refine RecordAgrees.of_eq ?_ (Page.shape_eq v)
      refine searched_agrees (by simp [hasOptional_iff]) fun hv => record_agrees ?_ (fun _ => hv) rfl
      apply both_agree (required_agrees "title" fun w _ => text_agrees w)
      apply both_agree (required_agrees "contentFilePath" fun w _ => text_agrees w)
      apply both_agree (optional_agrees "attachments" [] fun w _ => list_agrees fun u _ => text_agrees u)
      exact field_agrees (optional_agrees "children" [] fun w hw => (ih w hw).2)

/-- The reading of a tree agrees with the report. -/
theorem tree_agrees (v : Value) : RecordAgrees .tree Metadata.shape v := by
  refine searched_agrees (by simp [hasOptional_iff]) fun hv => record_agrees ?_ (fun _ => hv) rfl
  rw [Page.listShape_eq]
  apply both_agree (required_agrees "spaceKey" fun w _ => text_agrees w)
  apply both_agree (optional_agrees "pages" [] fun w _ => (page_agrees w).2)
  exact field_agrees (optional_agrees "parentContentId" none fun w _ => optionalText_agrees w)

/-- The reading of every record agrees with the report. -/
theorem shape_agrees (r : Record) (v : Value) : RecordAgrees r r.shape v :=
  match r with
  | .tree => tree_agrees v
  | .page => (page_agrees v).1
  | .request => request_agrees v
  | .body => body_agrees v
  | .storage => storage_agrees v
  | .space => space_agrees v
  | .ancestor => ancestor_agrees v

end Record

/-! ## Refusals -/

/-- Every misfit is worded by its detail. -/
theorem Misfit.isWorded_detail? (misfit : Misfit) : misfit.IsWorded misfit.detail? := by
  cases misfit <;> constructor

/-- A mismatch is known by its leaves, and by whether it is a misfit of its own. -/
theorem Mismatch.eq_of_leaves {m m' : Mismatch} (hleaves : m.leaves = m'.leaves)
    (hsingle : (∃ misfit, m = .single misfit) ↔ ∃ misfit, m' = .single misfit) : m = m' := by
  cases m with
  | single misfit =>
      obtain ⟨other, rfl⟩ := hsingle.mp ⟨misfit, rfl⟩
      simpa [leaves] using hleaves
  | fields fs =>
      cases m' with
      | single other => simp at hsingle
      | fields fs' => simpa [leaves] using hleaves

/-- A value is refused in the place of a record just with the mismatch that the report on it describes: a
report without leaves is no refusal, and every other one is. -/
theorem Record.shape_refuses_iff (r : Record) (v : Value) (m : Mismatch) :
    r.shape v = .error m ↔ m.Refuses r v := by
  have hagrees := r.shape_agrees v
  constructor
  · intro h
    have hsingle := hagrees.single
    have hreport := hagrees.report m.leaves
    rw [h] at hsingle hreport
    refine ⟨hreport.mpr rfl, hagrees.rejects m h, ?_, fun leaf _ => leaf.misfit.isWorded_detail?⟩
    simpa using hsingle
  · intro h
    have hreported := (hagrees.report _).mp h.isReport
    cases hshape : r.shape v with
    | ok x =>
        rw [hshape] at hreported
        exact absurd hreported.symm h.rejects
    | error m' =>
        have hsingle := hagrees.single
        rw [hshape] at hreported hsingle
        rw [Mismatch.eq_of_leaves hreported]
        rw [h.single, ← hsingle]
        simp

/-- The second page of the list is bad too, but only the first bad one is reported. -/
example :
    Metadata.shape (.object [(text "parentContentId", .int 5),
      (text "pages", .array [.object [(text "title", .null), (text "children", .object [])], .null])]) =
    .error (.fields
      [⟨[text "spaceKey"], .missing (text "spaceKey")⟩,
        ⟨[text "pages", text "title"], .notText (text "NoneType")⟩,
        ⟨[text "pages", text "contentFilePath"], .missing (text "contentFilePath")⟩,
        ⟨[text "pages", text "children"], .notArray (text "dict")⟩,
        ⟨[text "parentContentId"], .notText (text "int")⟩]) := rfl

end PageTree
