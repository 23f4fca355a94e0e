import PageTree.Proofs.Schema
import PageTree.Proofs.Value
import PageTree.Proofs.PageRequest

/-!
# Written records

Reading a record and writing it again leaves little of the value out, and adds nothing: `Schema.tidy` says
what is left. At every level it drops the members whose keys are unknown and the optional ones that hold
their default, and puts the others in the order of the fields.

`Record.written_tidily` joins the two directions. A record that is written is read again as it was, and holds
no null and no empty array at any depth; and a value that is read as a record is written as its tidy form.
-/

set_option autoImplicit false

namespace PageTree

/-! ## Tidy values -/

namespace Record

/-- A field as a member of an object. An optional one that holds its default is left out. -/
def Field.entry (f : Field) (v : Value) : Members :=
  if f.isRequired || !isDefault v then [(f.name, v)] else []

/-- What the members of an object say of a field. -/
def Field.entryIn (f : Field) (members : Members) : Members :=
  match Members.find? f.name members with
  | some v => f.entry v
  | none => []

/-- The members for the fields of a record, in the order of the fields. -/
def arranged (r : Record) (members : Members) : Members := r.fields.flatMap fun f => f.entryIn members

/-- The field with a name. -/
def field? (r : Record) (name : Text) : Option Field := r.fields.find? fun f => f.name = name

end Record

mutual

/-- A value without the members that make no difference, its members in the order of the fields. -/
def Schema.tidy : Schema → Value → Value
  | .list item, .array items => .array (Schema.tidyItems item items)
  | .record r, .object members => .object (r.arranged (Schema.tidyMembers r members))
  | _, v => v

/-- The tidy forms of items. -/
def Schema.tidyItems (item : Schema) : List Value → List Value
  | [] => []
  | v :: rest => item.tidy v :: Schema.tidyItems item rest

/-- The members whose keys are names of fields, their values in tidy form. -/
def Schema.tidyMembers (r : Record) : List (Text × Value) → List (Text × Value)
  | [] => []
  | (key, v) :: rest =>
    match r.field? key with
    | some f => (key, f.schema.tidy v) :: Schema.tidyMembers r rest
    | none => Schema.tidyMembers r rest

end

/-- A value in which there is no null and no empty array, at any depth. -/
def Value.IsMinimal (v : Value) : Prop := ∀ w : Value, w.LiesIn v → w ≠ .null ∧ w ≠ .array []

/-! ## Minimal values -/

section Minimal

variable {v : Value} {items : List Value} {fields : Members}

/-- A value is no default just if it is neither null nor an empty array. -/
theorem isDefault_eq_false_iff : isDefault v = false ↔ v ≠ .null ∧ v ≠ .array [] := by
  cases v with
  | array items => cases items <;> simp [isDefault]
  | _ => simp [isDefault]

/-- A value is minimal if it is no default and its parts are minimal. -/
theorem isMinimal_of_parts (hself : isDefault v = false) (hparts : ∀ w ∈ v.parts, w.IsMinimal) :
    v.IsMinimal := by
  intro w hw
  cases hw with
  | self => exact isDefault_eq_false_iff.mp hself
  | part hpart h => exact hparts _ hpart w h

/-- A text is minimal. -/
theorem isMinimal_str (s : Text) : (Value.str s).IsMinimal := isMinimal_of_parts rfl nofun

/-- An object is minimal if its values are. -/
theorem isMinimal_object (h : ∀ f ∈ fields, f.2.IsMinimal) : (Value.object fields).IsMinimal := by
  apply isMinimal_of_parts rfl
  intro w hw
  obtain ⟨f, hf, rfl⟩ := List.mem_map.mp hw
  exact h f hf

/-- A record is minimal if its fields are as soon as they do not hold their default. -/
theorem isMinimal_withoutDefaults (h : ∀ f ∈ fields, isDefault f.2 = false → f.2.IsMinimal) :
    (withoutDefaults fields).IsMinimal := by
  apply isMinimal_object
  intro f hf
  obtain ⟨hmem, hdefault⟩ := List.mem_filter.mp hf
  exact h f hmem (by simpa using hdefault)

/-- An array is minimal if its items are and there are some. -/
theorem isMinimal_array (h : ∀ w ∈ items, w.IsMinimal) (hself : isDefault (.array items) = false) :
    (Value.array items).IsMinimal := isMinimal_of_parts hself h

/-- Values that are minimal one by one are minimal as items. -/
theorem isMinimal_map {α : Type} {toValue : α → Value} (h : ∀ a, (toValue a).IsMinimal) (l : List α) :
    ∀ w ∈ l.map toValue, w.IsMinimal := by
  intro w hw
  obtain ⟨a, -, rfl⟩ := List.mem_map.mp hw
  exact h a

end Minimal

namespace Record

/-- The value of a space is minimal. -/
theorem space_isMinimal (s : Space) : s.toValue.IsMinimal :=
  isMinimal_object (by simp [isMinimal_str])

/-- The value of an ancestor is minimal. -/
theorem ancestor_isMinimal (a : Ancestor) : a.toValue.IsMinimal :=
  isMinimal_object (by simp [isMinimal_str])

/-- The value of a stored text is minimal. -/
theorem storage_isMinimal (s : Storage) : s.toValue.IsMinimal :=
  isMinimal_object (by simp [isMinimal_str])

/-- The value of a body is minimal. -/
theorem body_isMinimal (b : Body) : b.toValue.IsMinimal :=
  isMinimal_object (by simp [storage_isMinimal])

/-- The value of a request is minimal. -/
theorem request_isMinimal (r : PageRequest) : r.toValue.IsMinimal := by
  apply isMinimal_withoutDefaults
  simp only [List.forall_mem_cons]
  refine ⟨fun _ => isMinimal_str _, fun _ => isMinimal_str _, fun _ => space_isMinimal _,
    fun _ => body_isMinimal _, fun h => ?_, by simp⟩
  exact isMinimal_array (isMinimal_map ancestor_isMinimal r.ancestors) h

mutual

/-- The value of a page is minimal. -/
theorem page_isMinimal : (page : Page) → page.toValue.IsMinimal
  | ⟨title, contentPath, attachments, children⟩ => by
      apply isMinimal_withoutDefaults
      simp only [List.forall_mem_cons]
      refine ⟨fun _ => isMinimal_str _, fun _ => isMinimal_str _, fun h => ?_, fun h => ?_, by simp⟩
      · exact isMinimal_array (isMinimal_map isMinimal_str attachments) h
      · exact isMinimal_array (pages_areMinimal children) h

/-- The values of pages are minimal. -/
theorem pages_areMinimal : (pages : List Page) → ∀ w ∈ Page.toValues pages, w.IsMinimal
  | [] => by simp [Page.toValues]
  | p :: pages => List.forall_mem_cons.mpr ⟨page_isMinimal p, pages_areMinimal pages⟩

end

/-- The value of a tree is minimal. -/
theorem tree_isMinimal (m : Metadata) : m.toValue.IsMinimal := by
  apply isMinimal_withoutDefaults
  simp only [List.forall_mem_cons]
  refine ⟨fun _ => isMinimal_str _, fun h => ?_, fun h => ?_, by simp⟩
  · exact isMinimal_array (pages_areMinimal m.pages) h
  · cases hparent : m.parentId with
    | none => simp [hparent, optionalValue, isDefault] at h
    | some id => exact isMinimal_str id

/-- The value of every record is minimal. -/
theorem toValue_isMinimal : (r : Record) → (x : r.Carrier) → (r.toValue x).IsMinimal
  | .tree => tree_isMinimal
  | .page => page_isMinimal
  | .request => request_isMinimal
  | .body => body_isMinimal
  | .storage => storage_isMinimal
  | .space => space_isMinimal
  | .ancestor => ancestor_isMinimal

/-! ## Reading what was written -/

/-- A record is read again as it was written. -/
theorem shape_toValue : (r : Record) → (x : r.Carrier) → r.shape (r.toValue x) = .ok x
  | .tree, m => Metadata.shape_eq_ok.mpr m.describesTree_toValue
  | .page, p => (Page.shape_eq_ok _ p).mpr p.describesPage_toValue
  | .request, r => r.shape_toValue
  | .body, b => b.shape_toValue
  | .storage, s => s.shape_toValue
  | .space, s => s.shape_toValue
  | .ancestor, a => a.shape_toValue

end Record

/-! ## Writing what was read -/

section Writing

variable {α : Type} {s : Schema} {shape : Shape α} {toValue : α → Value} {v : Value} {r : Record}
  {members : Members}

/-- What a value is read as is written as the tidy form of the value. -/
def WritesTidily (s : Schema) (shape : Shape α) (toValue : α → Value) (v : Value) : Prop :=
  ∀ a, shape v = .ok a → toValue a = s.tidy v

/-- A text is written as its tidy form. -/
theorem text_writesTidily (v : Value) : WritesTidily .text Shape.text .str v := by
  intro t h
  rw [Shape.text_eq_ok.mp h, Schema.tidy] <;> nofun

/-- An optional text is written as its tidy form. -/
theorem optionalText_writesTidily (v : Value) :
    WritesTidily .optionalText Shape.optionalText optionalValue v := by
  intro t h
  cases Shape.optionalText_eq_ok.mp h <;> rw [Schema.tidy] <;> first | rfl | nofun

/-- A choice is written as its tidy form if each choice is written as its word. -/
theorem choice_writesTidily (choices : List (Text × α)) {toText : α → Text}
    (h : ∀ c ∈ choices, toText c.2 = c.1) (v : Value) :
    WritesTidily (.choice (choices.map Prod.fst)) (Shape.choice choices) (fun a => .str (toText a)) v := by
  intro a ha
  cases v with
  | str t =>
      simp only [Shape.choice] at ha
      split at ha
      · next word b hfind =>
          obtain rfl := Except.ok.inj ha
          have hword : word = t := by simpa using List.find?_some hfind
          show Value.str (toText b) = _
          rw [h _ (List.mem_of_find?_eq_some hfind), hword, Schema.tidy] <;> nofun
      · cases ha
  | _ => cases ha

/-- The tidy forms of items are those of each. -/
theorem tidyItems_eq_map (items : List Value) : s.tidyItems items = items.map s.tidy := by
  induction items with
  | nil => rfl
  | cons w rest ih => rw [Schema.tidyItems, ih, List.map_cons]

/-- The elements of items are written as the tidy forms of the items. -/
theorem elements_tidily {items : List Value} {l : List α}
    (h : ∀ w ∈ items, WritesTidily s shape toValue w) (hl : Shape.elements shape items = .ok l) :
    l.map toValue = items.map s.tidy := by
  induction items generalizing l with
  | nil =>
      cases hl
      rfl
  | cons w rest ih =>
      obtain ⟨hfirst, hrest⟩ := List.forall_mem_cons.mp h
      obtain ⟨a, others, ha, hothers, rfl⟩ := Shape.elements_cons_eq_ok.mp hl
      rw [List.map_cons, List.map_cons, hfirst a ha, ih hrest hothers]

/-- A list is written as its tidy form if its items are. -/
theorem list_writesTidily (h : ∀ w ∈ v.parts, WritesTidily s shape toValue w) :
    WritesTidily (.list s) (Shape.list shape) (fun l => .array (l.map toValue)) v := by
  intro l hl
  cases v with
  | array items =>
      simp only [Schema.tidy, tidyItems_eq_map]
      exact congrArg Value.array (elements_tidily h hl)
  | _ => cases hl

/-! ### Fields -/

/-- No two fields of a record have the same name. -/
theorem Record.names_nodup (r : Record) : (r.fields.map Field.name).Nodup := by
  cases r <;> decide

/-- No two fields have the same name, so a field is found by its name. -/
theorem Record.field?_name {f : Field} (hf : f ∈ r.fields) : r.field? f.name = some f := by
  obtain ⟨before, after, hsplit⟩ := List.append_of_mem hf
  have hnodup := r.names_nodup
  rw [hsplit, List.map_append, List.nodup_append] at hnodup
  rw [Record.field?, hsplit, List.find?_eq_some_iff_append]
  refine ⟨by simp, before, after, rfl, ?_⟩
  intro g hg
  have hne := hnodup.2.2 g.name (List.mem_map_of_mem hg) f.name (by simp)
  simpa using hne

/-- The member of a field is found in tidy form among the tidy members. -/
theorem find?_tidyMembers {f : Record.Field} (hf : f ∈ r.fields) :
    Members.find? f.name (Schema.tidyMembers r members) =
      (Members.find? f.name members).map f.schema.tidy := by
  induction members with
  | nil => rfl
  | cons m rest ih =>
      obtain ⟨key, v⟩ := m
      rw [Schema.tidyMembers, Members.find?]
      by_cases hkey : key = f.name
      · subst hkey
        rw [r.field?_name hf]
        simp [Members.find?]
      · rw [if_neg hkey, ← ih]
        cases r.field? key with
        | none => rfl
        | some g => simp [Members.find?, hkey]

/-- The tidy members say of a field what the tidy form of its member says. -/
theorem entryIn_of_find? {f : Record.Field} (hf : f ∈ r.fields)
    (hfind : Members.find? f.name members = some v) :
    f.entryIn (Schema.tidyMembers r members) = f.entry (f.schema.tidy v) := by
  rw [Record.Field.entryIn, find?_tidyMembers hf, hfind]
  rfl

/-- A field that has to be there is written as the object has it. -/
theorem required_entry (toValue : α → Value) {name : String} {a : α}
    (hf : .required name s ∈ r.fields)
    (h : ∀ w ∈ (Value.object members).parts, WritesTidily s shape toValue w)
    (hread : Shape.required (text name) shape (.object members) = .ok a) :
    (Record.Field.required name s).entryIn (Schema.tidyMembers r members) =
      (Record.Field.required name s).entry (toValue a) := by
  obtain ⟨w, hfind, hw⟩ := Shape.required_eq_ok.mp hread
  rw [entryIn_of_find? hf hfind, h w (Value.mem_parts_of_find? hfind) a hw]
  rfl

/-- So is a field that may be left out; it is left out if it holds its default. -/
theorem optional_entry (toValue : α → Value) {name : String} {otherwise a : α}
    (hf : .optional name s ∈ r.fields)
    (hotherwise : isDefault (toValue otherwise) = true)
    (h : ∀ w ∈ (Value.object members).parts, WritesTidily s shape toValue w)
    (hread : Shape.optional (text name) otherwise shape (.object members) = .ok a) :
    (Record.Field.optional name s).entryIn (Schema.tidyMembers r members) =
      (Record.Field.optional name s).entry (toValue a) := by
  rw [Shape.optional_object, Collected.under_eq_ok] at hread
  cases hfind : Members.find? (text name) members with
  | none =>
      rw [hfind] at hread
      obtain rfl := Except.ok.inj hread
      rw [Record.Field.entryIn, find?_tidyMembers hf]
      simp [Record.Field.optional, Record.Field.entry, hfind, hotherwise]
  | some w =>
      rw [hfind] at hread
      rw [entryIn_of_find? hf hfind, h w (Value.mem_parts_of_find? hfind) a hread]
      rfl

/-! ### Records -/

/-- An object without the fields that hold their default, if no other field does. -/
theorem withoutDefaults_eq (entries : List (Record.Field × Value))
    (h : ∀ e ∈ entries, e.1.isRequired = true → isDefault e.2 = false) :
    withoutDefaults (entries.map fun e => (e.1.name, e.2)) =
      .object (entries.flatMap fun e => e.1.entry e.2) := by
  unfold withoutDefaults
  congr 1
  induction entries with
  | nil => rfl
  | cons e rest ih =>
      obtain ⟨hfirst, hrest⟩ := List.forall_mem_cons.mp h
      rw [List.map_cons, List.filter_cons, ih hrest, List.flatMap_cons, Record.Field.entry]
      cases hrequired : e.1.isRequired <;> cases hdefault : isDefault e.2 <;> simp_all

/-- An object is tidy if each field of a record is written as the object has it. -/
theorem object_eq_tidy (entries : List (Record.Field × Value))
    (hfields : entries.map Prod.fst = r.fields)
    (h : ∀ e ∈ entries, e.1.entryIn (Schema.tidyMembers r members) = e.1.entry e.2) :
    .object (entries.flatMap fun e => e.1.entry e.2) = (Schema.record r).tidy (.object members) := by
  rw [Schema.tidy, Record.arranged, ← hfields, List.flatMap_map]
  congr 1
  exact (List.flatMap_congr h).symm

/-- Only an object has a field that has to be there. -/
theorem exists_members_of_required {name : Text} {a : α}
    (hread : Shape.required name shape v = .ok a) : ∃ members, v = .object members := by
  by_contra hobject
  exact Shape.required_of_not_object (fun members hv => hobject ⟨members, hv⟩) hread

end Writing

namespace Record

/-- A space is written as the tidy form of what it was read from. -/
theorem space_writesTidily (v : Value) :
    WritesTidily (.record .space) Space.shape Space.toValue v := by
  intro s hs
  obtain ⟨key, hkey, rfl⟩ := Collected.toRecord_eq_ok.mp hs
  obtain ⟨members, rfl⟩ := exists_members_of_required hkey
  refine object_eq_tidy ([(.required "key" .text, .str key)]) rfl ?_
  simp only [List.forall_mem_singleton]
  exact required_entry .str (by simp [fields]) (fun w _ => text_writesTidily w) hkey

/-- An ancestor is written as the tidy form of what it was read from. -/
theorem ancestor_writesTidily (v : Value) :
    WritesTidily (.record .ancestor) Ancestor.shape Ancestor.toValue v := by
  intro a ha
  obtain ⟨id, hid, rfl⟩ := Collected.toRecord_eq_ok.mp ha
  obtain ⟨members, rfl⟩ := exists_members_of_required hid
  refine object_eq_tidy ([(.required "id" .text, .str id)]) rfl ?_
  simp only [List.forall_mem_singleton]
  exact required_entry .str (by simp [fields]) (fun w _ => text_writesTidily w) hid

/-- A type of content is written as what it was read from. -/
theorem contentType_writesTidily (v : Value) :
    WritesTidily (.choice [text "page"]) ContentType.shape (fun c => .str c.toText) v :=
  choice_writesTidily [(ContentType.toText .page, ContentType.page)] (by simp) v

/-- A representation is written as what it was read from. -/
theorem representation_writesTidily (v : Value) :
    WritesTidily (.choice [text "storage"]) Representation.shape (fun c => .str c.toText) v :=
  choice_writesTidily [(Representation.toText .storage, Representation.storage)] (by simp) v

/-- A stored text is written as the tidy form of what it was read from. -/
theorem storage_writesTidily (v : Value) :
    WritesTidily (.record .storage) Storage.shape Storage.toValue v := by
  intro s hs
  obtain ⟨⟨value, representation⟩, hread, rfl⟩ := Collected.toRecord_eq_ok.mp hs
  obtain ⟨hvalue, hrepresentation⟩ := Collected.both_eq_ok.mp hread
  obtain ⟨members, rfl⟩ := exists_members_of_required hvalue
  refine object_eq_tidy ([(.required "value" .text, .str value),
    (.required "representation" (.choice [text "storage"]), .str representation.toText)]) rfl ?_
  simp only [List.forall_mem_cons]
  refine ⟨?_, ?_, List.forall_mem_nil _⟩
  · exact required_entry .str (by simp [fields]) (fun w _ => text_writesTidily w) hvalue
  · exact required_entry (fun c : Representation => .str c.toText) (by simp [fields])
      (fun w _ => representation_writesTidily w) hrepresentation

/-- A body is written as the tidy form of what it was read from. -/
theorem body_writesTidily (v : Value) : WritesTidily (.record .body) Body.shape Body.toValue v := by
  intro b hb
  obtain ⟨storage, hstorage, rfl⟩ := Collected.toRecord_eq_ok.mp hb
  obtain ⟨members, rfl⟩ := exists_members_of_required hstorage
  refine object_eq_tidy ([(.required "storage" (.record .storage), storage.toValue)]) rfl ?_
  simp only [List.forall_mem_singleton]
  exact required_entry Storage.toValue (by simp [fields]) (fun w _ => storage_writesTidily w) hstorage

/-- A record that is searched for is read from its fields. -/
theorem exists_fields_of_searched {α β : Type} {make : α → β} {x : Value → Collected α} {v : Value} {b : β}
    (h : Shape.searched (fun v => (x v).toRecord make) v = .ok b) : ∃ a, x v = .ok a ∧ make a = b := by
  unfold Shape.searched at h
  split at h
  · exact Collected.toRecord_eq_ok.mp h
  · cases h

/-- A request is written as the tidy form of what it was read from. -/
theorem request_writesTidily (v : Value) :
    WritesTidily (.record .request) PageRequest.shape PageRequest.toValue v := by
  intro r hr
  obtain ⟨⟨contentType, title, space, body, ancestors⟩, hread, rfl⟩ := exists_fields_of_searched hr
  simp only [Collected.both_eq_ok] at hread
  obtain ⟨htype, htitle, hspace, hbody, hancestors⟩ := hread
  obtain ⟨members, rfl⟩ := exists_members_of_required htype
  have hwritten := withoutDefaults_eq ([
    (.required "type" (.choice [text "page"]), .str contentType.toText),
    (.required "title" .text, .str title), (.required "space" (.record .space), space.toValue),
    (.required "body" (.record .body), body.toValue),
    (.optional "ancestors" (.list (.record .ancestor)), .array (ancestors.map Ancestor.toValue))])
    (by simp [Field.required, Field.optional, isDefault, Space.toValue, Body.toValue])
  refine hwritten.trans (object_eq_tidy _ rfl ?_)
  simp only [List.forall_mem_cons]
  refine ⟨?_, ?_, ?_, ?_, ?_, List.forall_mem_nil _⟩
  · exact required_entry (fun c : ContentType => .str c.toText) (by simp [fields])
      (fun w _ => contentType_writesTidily w) htype
  · exact required_entry .str (by simp [fields]) (fun w _ => text_writesTidily w) htitle
  · exact required_entry Space.toValue (by simp [fields]) (fun w _ => space_writesTidily w) hspace
  · exact required_entry Body.toValue (by simp [fields]) (fun w _ => body_writesTidily w) hbody
  · exact optional_entry (fun l : List Ancestor => .array (l.map Ancestor.toValue)) (by simp [fields]) rfl
      (fun w _ => list_writesTidily fun u _ => ancestor_writesTidily u) hancestors

/-- The values of pages are those of each. -/
theorem toValues_eq_map (pages : List Page) : Page.toValues pages = pages.map Page.toValue := by
  induction pages with
  | nil => rfl
  | cons p rest ih => rw [Page.toValues, ih, List.map_cons]

/-- The pages below a page lie two steps down, in an array that is a part of the page. -/
theorem page_writesTidily (v : Value) :
    WritesTidily (.record .page) Page.shape Page.toValue v ∧
      WritesTidily (.list (.record .page)) (Shape.list Page.shape)
        (fun pages => .array (pages.map Page.toValue)) v := by
  induction v using Value.partsInduction with
  | step v ih =>
      refine ⟨?_, list_writesTidily fun w hw => (ih w hw).1⟩
      intro p hp
      rw [Page.shape_eq] at hp
      obtain ⟨⟨title, contentPath, attachments, children⟩, hread, rfl⟩ := exists_fields_of_searched hp
      simp only [Collected.both_eq_ok] at hread
      obtain ⟨htitle, hpath, hattachments, hchildren⟩ := hread
      obtain ⟨members, rfl⟩ := exists_members_of_required htitle
      have hwritten := withoutDefaults_eq ([(.required "title" .text, .str title),
        (.required "contentFilePath" .text, .str contentPath),
        (.optional "attachments" (.list .text), .array (attachments.map .str)),
        (.optional "children" (.list (.record .page)), .array (children.map Page.toValue))])
        (by simp [Field.required, Field.optional, isDefault])
      rw [Page.toValue, toValues_eq_map]
      refine hwritten.trans (object_eq_tidy _ rfl ?_)
      simp only [List.forall_mem_cons]
      refine ⟨?_, ?_, ?_, ?_, List.forall_mem_nil _⟩
      · exact required_entry .str (by simp [fields]) (fun w _ => text_writesTidily w) htitle
      · exact required_entry .str (by simp [fields]) (fun w _ => text_writesTidily w) hpath
      · exact optional_entry (fun l : List Text => .array (l.map .str)) (by simp [fields]) rfl
          (fun w _ => list_writesTidily fun u _ => text_writesTidily u) hattachments
      · exact optional_entry (fun l : List Page => .array (l.map Page.toValue)) (by simp [fields]) rfl
          (fun w hw => (ih w hw).2) hchildren

/-- A tree is written as the tidy form of what it was read from. -/
theorem tree_writesTidily (v : Value) :
    WritesTidily (.record .tree) Metadata.shape Metadata.toValue v := by
  intro m hm
  obtain ⟨⟨spaceKey, pages, parentId⟩, hread, rfl⟩ := exists_fields_of_searched hm
  simp only [Collected.both_eq_ok, Page.listShape_eq] at hread
  obtain ⟨hspaceKey, hpages, hparentId⟩ := hread
  obtain ⟨members, rfl⟩ := exists_members_of_required hspaceKey
  have hwritten := withoutDefaults_eq ([(.required "spaceKey" .text, .str spaceKey),
    (.optional "pages" (.list (.record .page)), .array (pages.map Page.toValue)),
    (.optional "parentContentId" .optionalText, optionalValue parentId)])
    (by simp [Field.required, Field.optional, isDefault])
  rw [Metadata.toValue, toValues_eq_map]
  refine hwritten.trans (object_eq_tidy _ rfl ?_)
  simp only [List.forall_mem_cons]
  refine ⟨?_, ?_, ?_, List.forall_mem_nil _⟩
  · exact required_entry .str (by simp [fields]) (fun w _ => text_writesTidily w) hspaceKey
  · exact optional_entry (fun l : List Page => .array (l.map Page.toValue)) (by simp [fields]) rfl
      (fun w _ => (page_writesTidily w).2) hpages
  · exact optional_entry optionalValue (by simp [fields]) rfl
      (fun w _ => optionalText_writesTidily w) hparentId

/-- Every record is written as the tidy form of what it was read from. -/
theorem shape_writesTidily : (r : Record) → (v : Value) →
    WritesTidily (.record r) r.shape r.toValue v
  | .tree => tree_writesTidily
  | .page => fun v => (page_writesTidily v).1
  | .request => request_writesTidily
  | .body => body_writesTidily
  | .storage => storage_writesTidily
  | .space => space_writesTidily
  | .ancestor => ancestor_writesTidily

/-- A record that is written is read again as it was, and holds no null and no empty array. A value that is
read as a record is written as its tidy form. -/
theorem written_tidily (r : Record) :
    (∀ x : r.Carrier, r.shape (r.toValue x) = .ok x ∧ (r.toValue x).IsMinimal) ∧
      ∀ v x, r.shape v = .ok x → r.toValue x = (Schema.record r).tidy v :=
  ⟨fun x => ⟨r.shape_toValue x, r.toValue_isMinimal x⟩, r.shape_writesTidily⟩

/-- A page inside a tree loses a key that is unknown there and its empty list of attachments. The tree loses
the null in the place of its parent, and its members change places. -/
theorem page_in_tree_written_tidily :
    toValue .tree ⟨text "k", [⟨text "t", text "p", [], []⟩], none⟩ =
      .object [(text "spaceKey", .str (text "k")),
        (text "pages", .array [.object [(text "title", .str (text "t")),
          (text "contentFilePath", .str (text "p"))]])] :=
  (written_tidily .tree).2
    (.object [(text "parentContentId", .null),
      (text "pages", .array [.object [(text "contentFilePath", .str (text "p")),
        (text "spaceKey", .str (text "k")), (text "attachments", .array []),
        (text "title", .str (text "t"))]]),
      (text "spaceKey", .str (text "k"))])
    ⟨text "k", [⟨text "t", text "p", [], []⟩], none⟩ rfl

end Record

end PageTree
