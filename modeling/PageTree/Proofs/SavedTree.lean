import PageTree.Proofs.Datum
import PageTree.Proofs.Shape
import PageTree.Proofs.MetadataFile
import PageTree.Proofs.FileSystem.Write
import PageTree.Proofs.SavedTree.Room

/-!
# Saving a tree

The encoder takes any data, so a tree is given to it as a `Datum`. Its JSON form leaves out what is empty.
`load_saved` says that nothing is lost: the bytes, in a JSON file, are loaded as the same tree, whatever
characters stand in its texts. It is put together from one statement about each stage: the value that is
written describes the tree (`describesTree_toValue`), its JSON form is read as the value, and line ends do not
matter.

It says, too, which trees can be saved: those whose pages are not too deep below each other
(`Metadata.IsShallow`).
-/

set_option autoImplicit false

namespace PageTree

/-! ## Trees as data -/

mutual

/-- A page, as a datum. -/
def Page.toDatum : Page → Datum
  | ⟨title, contentPath, attachments, children⟩ =>
    .page (.str title) (.str contentPath) (.list (attachments.map .str)) (.list (Page.toData children))

/-- Pages, as data. -/
def Page.toData : List Page → List Datum
  | [] => []
  | page :: pages => page.toDatum :: Page.toData pages

end

/-- An optional text, as a datum. -/
def optionalDatum : Option Text → Datum
  | none => .null
  | some s => .str s

/-- A tree, as a datum. -/
def Metadata.toDatum (m : Metadata) : Datum :=
  .metadata (.str m.spaceKey) (.list (Page.toData m.pages)) (optionalDatum m.parentId)

/-! ## The encoder -/

/-- The values of texts are the texts. -/
theorem toValues_str (texts : List Text) :
    Datum.toValues (texts.map .str) = texts.map .str := by
  induction texts with
  | nil => rfl
  | cons s rest ih => rw [List.map_cons, Datum.toValues, ih, Datum.toValue, List.map_cons]

/-- A list is left out of a record just if the array of its values is left out of an object. -/
theorem listField_eq_filter (name : Text) {items : List Datum} {values : List Value}
    (h : Datum.toValues items = values) :
    (if (Datum.list items).isEmptyList then [] else [(name, Value.array values)]) =
      [(name, Value.array values)].filter fun f => !isDefault f.2 := by
  subst h
  cases items <;> rfl

/-- An optional text is left out of a record just if its value is left out of an object. -/
theorem optionalField_eq_filter (name : Text) (s : Option Text) :
    (if (optionalDatum s).isNull then [] else [(name, (optionalDatum s).toValue)]) =
      [(name, optionalValue s)].filter fun f => !isDefault f.2 := by
  cases s <;> rfl

mutual

/-- A page and its datum have the same value. -/
theorem Page.toValue_toDatum : (page : Page) → page.toDatum.toValue = page.toValue
  | ⟨title, contentPath, attachments, children⟩ => by
      have hchildren := Page.toValues_toData children
      simp only [Page.toDatum, Datum.toValue, toValues_str, hchildren]
      rw [listField_eq_filter _ (toValues_str attachments), listField_eq_filter _ hchildren,
        List.append_assoc, ← List.filter_append]
      rfl

/-- Pages and their data have the same values. -/
theorem Page.toValues_toData : (pages : List Page) →
    Datum.toValues (Page.toData pages) = Page.toValues pages
  | [] => rfl
  | page :: pages => by
      rw [Page.toData, Datum.toValues, Page.toValue_toDatum page, Page.toValues_toData pages,
        Page.toValues]

end

/-- A tree and its datum have the same value. -/
theorem Metadata.toValue_toDatum (m : Metadata) : m.toDatum.toValue = m.toValue := by
  have hpages := Page.toValues_toData m.pages
  simp only [Metadata.toDatum, Datum.toValue, hpages]
  rw [listField_eq_filter _ hpages, optionalField_eq_filter, List.append_assoc,
    ← List.filter_append]
  rfl

/-! ## Fields that are left out -/

section WithoutDefaults

variable {fields : Members}

/-- Fields of different names make a faithful object, whichever of them are left out. -/
theorem faithful_withoutDefaults (hnodup : (fields.map Prod.fst).Nodup)
    (h : ∀ f ∈ fields, Json.Faithful f.2) : Json.Faithful (withoutDefaults fields) := by
  rw [withoutDefaults, Json.Faithful, Json.faithfulMembers_iff]
  refine ⟨hnodup.sublist (List.filter_sublist.map Prod.fst), ?_⟩
  intro f hf
  exact h f (List.mem_of_mem_filter hf)

/-- A field is found just if it is not left out. -/
theorem find?_withoutDefaults (fields : Members) (hnodup : (fields.map Prod.fst).Nodup)
    (name : Text) :
    Members.find? name (fields.filter fun f => !isDefault f.2) =
      (Members.find? name fields).filter fun v => !isDefault v := by
  induction fields with
  | nil => rfl
  | cons f rest ih =>
      obtain ⟨key, v⟩ := f
      obtain ⟨hnew, hrest⟩ := List.nodup_cons.mp hnodup
      rw [List.filter_cons, Members.find?]
      by_cases hkey : key = name
      · subst hkey
        have hnone : Members.find? key rest = none := by
          by_contra hfind
          obtain ⟨w, hw⟩ := Option.ne_none_iff_exists'.mp hfind
          have hmem := (Members.find?_eq_some_iff hrest).mp hw
          exact hnew (List.mem_map.mpr ⟨_, hmem, rfl⟩)
        cases hdefault : isDefault v with
        | false => simp [Members.find?, Option.filter_some, hdefault]
        | true => simp [ih hrest, hnone, Option.filter_some, hdefault]
      · rw [if_neg hkey, ← ih hrest]
        split
        · rw [Members.find?, if_neg hkey]
        · rfl

/-- An array is left out only if nothing is in it. -/
theorem describesTexts_filter (texts : List Text) :
    DescribesTexts ((some (.array (texts.map .str))).filter fun v => !isDefault v) texts := by
  cases texts with
  | nil => exact .absent
  | cons s rest => exact .array (s :: rest)

/-- An array of pages is left out only if there are none. -/
theorem describesForest_filter {pages : List Page} (h : DescribesPages (Page.toValues pages) pages) :
    DescribesForest ((some (.array (Page.toValues pages))).filter fun v => !isDefault v) pages := by
  cases pages with
  | nil => exact .absent
  | cons page rest => exact .array h

/-- An optional text is left out only if there is none. -/
theorem describesText_filter (s : Option Text) :
    DescribesText ((some (optionalValue s)).filter fun v => !isDefault v) s := by
  cases s with
  | none => exact .absent
  | some s => exact .text s

end WithoutDefaults

/-! ## The value of a tree -/

mutual

/-- The value of a page describes the page. -/
theorem Page.describesPage_toValue : (page : Page) → DescribesPage page.toValue page
  | ⟨title, contentPath, attachments, children⟩ => by
      have hnodup : pageNames.Nodup := by decide
      have hfind := find?_withoutDefaults [(text "title", .str title),
        (text "contentFilePath", .str contentPath),
        (text "attachments", .array (attachments.map .str)),
        (text "children", .array (Page.toValues children))] hnodup
      refine .object (hfind _) (hfind _) ?_ ?_
      · rw [hfind]
        exact describesTexts_filter attachments
      · rw [hfind]
        exact describesForest_filter (Page.describesPages_toValues children)

/-- The values of pages describe the pages. -/
theorem Page.describesPages_toValues : (pages : List Page) →
    DescribesPages (Page.toValues pages) pages
  | [] => .nil
  | page :: pages => .cons (Page.describesPage_toValue page) (Page.describesPages_toValues pages)

end

/-- The value of a tree describes the tree. -/
theorem Metadata.describesTree_toValue (m : Metadata) : DescribesTree m.toValue m := by
  obtain ⟨spaceKey, pages, parentId⟩ := m
  have hnodup : treeNames.Nodup := by decide
  have hfind := find?_withoutDefaults [(text "spaceKey", .str spaceKey),
    (text "pages", .array (Page.toValues pages)),
    (text "parentContentId", optionalValue parentId)] hnodup
  refine .object (hfind _) ?_ ?_
  · rw [hfind]
    exact describesForest_filter (Page.describesPages_toValues pages)
  · rw [hfind]
    exact describesText_filter parentId

/-- Texts are faithful. -/
theorem faithfulItems_str (texts : List Text) : Json.FaithfulItems (texts.map .str) := by
  rw [Json.faithfulItems_iff]
  intro v hv
  obtain ⟨s, -, rfl⟩ := List.mem_map.mp hv
  trivial

mutual

/-- The value of a page is faithful. -/
theorem Page.faithful_toValue : (page : Page) → Json.Faithful page.toValue
  | ⟨title, contentPath, attachments, children⟩ => by
      have hnodup : pageNames.Nodup := by decide
      refine faithful_withoutDefaults hnodup ?_
      simp only [List.forall_mem_cons, Json.Faithful]
      exact ⟨trivial, trivial, faithfulItems_str attachments, Page.faithfulItems_toValues children,
        by simp⟩

/-- The values of pages are faithful. -/
theorem Page.faithfulItems_toValues : (pages : List Page) → Json.FaithfulItems (Page.toValues pages)
  | [] => trivial
  | page :: pages => ⟨Page.faithful_toValue page, Page.faithfulItems_toValues pages⟩

end

/-- The value of a tree is faithful. -/
theorem Metadata.faithful_toValue (m : Metadata) : Json.Faithful m.toValue := by
  have hnodup : treeNames.Nodup := by decide
  have hparent : Json.Faithful (optionalValue m.parentId) := by
    cases m.parentId <;> trivial
  refine faithful_withoutDefaults hnodup ?_
  simp only [List.forall_mem_cons, Json.Faithful]
  exact ⟨trivial, Page.faithfulItems_toValues m.pages, hparent, by simp⟩

/-! ## Saving and loading -/

namespace Metadata

/-- The value of a tree is read as the tree. -/
theorem ofValue_toValue (m : Metadata) : ofValue m.toValue = .ok m := by
  rw [ofValue, shape_eq_ok.mpr (describesTree_toValue m)]
  rfl

/-- What is saved of a tree without surrogates is the JSON form of its value. -/
theorem payload_toDatum_eq_ok {m : Metadata} (h : ∀ s ∈ m.texts, s.hasSurrogate = false) {payload : Text} :
    m.toDatum.payload = .ok payload ↔ m.IsShallow ∧ Json.write m.toValue = payload := by
  rw [Datum.payload_eq_ok, toValue_toDatum, obstacle?_toValue h]

/-- A tree without surrogates is saved just if its pages are not too deep. -/
theorem exists_payload_iff {m : Metadata} (h : ∀ s ∈ m.texts, s.hasSurrogate = false) :
    (∃ payload, m.toDatum.payload = .ok payload) ↔ m.IsShallow := by
  simp only [payload_toDatum_eq_ok h, exists_and_left, exists_eq', and_true]

/-- A tree without surrogates is refused just if its pages are too deep. -/
theorem exists_failure_iff {m : Metadata} (h : ∀ s ∈ m.texts, s.hasSurrogate = false) :
    (∃ failure, m.toDatum.payload = .error failure) ↔ ¬ m.IsShallow := by
  rw [← exists_payload_iff h]
  cases m.toDatum.payload <;> simp

/-- The JSON form of a tree, in UTF-8, is read as the tree. -/
theorem ofPayload_saved {m : Metadata} {payload : Text} (h : m.toDatum.payload = .ok payload) :
    ∃ b, Utf8.encode? payload = some b ∧ ofPayload b = .ok m := by
  rw [Datum.payload_eq_ok, toValue_toDatum] at h
  obtain ⟨hfree, rfl⟩ := h
  obtain ⟨b, hencode, hread⟩ := Json.decode?_encode?_write Json.strict (faithful_toValue m) hfree
  obtain ⟨s, hdecode, hvalue⟩ := Option.bind_eq_some_iff.mp hread
  refine ⟨b, hencode, ?_⟩
  unfold ofPayload ofJson
  rw [hdecode]
  dsimp only
  rw [hvalue]
  exact ofValue_toValue m

/-- Every tree that can be saved can be read from some bytes. -/
theorem exists_ofPayload_eq {m : Metadata} (hplain : ∀ s ∈ m.texts, s.hasSurrogate = false)
    (hshallow : m.IsShallow) : ∃ b, ofPayload b = .ok m := by
  obtain ⟨payload, hpayload⟩ := (exists_payload_iff hplain).mpr hshallow
  obtain ⟨b, -, hm⟩ := ofPayload_saved hpayload
  exact ⟨b, hm⟩

/-- A tree with a space key and without surrogates is saved just if its pages are not too deep below each
other, and then it is loaded as it is: its JSON form has a UTF-8 form, and every file that holds these bytes
is loaded as the tree. -/
theorem load_saved {m : Metadata} (hplain : ∀ s ∈ m.texts, s.hasSurrogate = false)
    (hkey : Text.isBlank m.spaceKey = false) :
    ((∃ payload, m.toDatum.payload = .ok payload) ↔ m.IsShallow) ∧
    ∀ payload, m.toDatum.payload = .ok payload → ∃ b, Utf8.encode? payload = some b ∧
      ∀ path w, isYamlPath path = false →
        (w.files.read path = .ok b → ∃ done, load path w = .ok m done) ∧
        (w.files.CanHold path →
          ∃ done, load path { w with files := w.files.write path (.file b) } = .ok m done) := by
  refine ⟨exists_payload_iff hplain, ?_⟩
  intro payload hpayload
  obtain ⟨b, hencode, hm⟩ := ofPayload_saved hpayload
  have hload : ∀ path w, isYamlPath path = false → w.files.read path = .ok b →
      ∃ done, load path w = .ok m done := by
    intro path w hsuffix hread
    have hfile : ofJsonFile path b = .ok m := (ofJsonFile_eq_ok path).mpr ⟨hm, hkey⟩
    refine ⟨announced path w, ?_⟩
    rw [load_json hread hsuffix, hfile]
    rfl
  refine ⟨b, hencode, ?_⟩
  intro path w hsuffix
  refine ⟨hload path w hsuffix, ?_⟩
  intro hold
  exact hload path _ hsuffix (FileSystem.read_write hold b)

/-- A tree of one page with line ends, marks, a backslash, a separator of lines and a code point beyond the
basic plane in its texts. -/
def oddTree : Metadata :=
  ⟨text "S\r\n\"", [⟨text "A\r\u2028", text "C:\\a\x00", [text "😀"], []⟩], some []⟩

/-- The odd tree is saved and loaded as it is. -/
theorem load_saved_oddTree :
    (∀ s ∈ oddTree.texts, s.hasSurrogate = false) ∧ Text.isBlank oddTree.spaceKey = false ∧
      oddTree.IsShallow ∧
      ∃ payload b, oddTree.toDatum.payload = .ok payload ∧ Utf8.encode? payload = some b ∧
        ∃ done, load (.ofText (text "m.json")) (worldWith (.ofText (text "m.json")) b) =
          .ok oddTree done := by
  have hplain : ∀ s ∈ oddTree.texts, s.hasSurrogate = false := by decide
  have hkey : Text.isBlank oddTree.spaceKey = false := by decide
  have hsuffix : isYamlPath (.ofText (text "m.json")) = false := by decide +kernel
  have hshallow : oddTree.IsShallow := by decide
  refine ⟨hplain, hkey, hshallow, ?_⟩
  obtain ⟨hsaved, hloaded⟩ := load_saved hplain hkey
  obtain ⟨payload, hpayload⟩ := hsaved.mpr hshallow
  obtain ⟨b, hencode, hload⟩ := hloaded payload hpayload
  refine ⟨payload, b, hpayload, hencode, ?_⟩
  apply (hload (.ofText (text "m.json")) (.start (.empty (.ofText (text "/w"))) []) hsuffix).2
  refine ⟨⟨[(text "m.json").flatMap Utf8.unit], [(text "w").flatMap Utf8.unit],
    (text "m.json").flatMap Utf8.unit, _, [], rfl, rfl, ?_, ?_, rfl, rfl⟩, ?_⟩
  · decide
  · decide
  · intro entries
    have hnone : FileSystem.lookup? ((FileSystem.empty (.ofText (text "/w"))).namesFromTop
        (.ofText (text "m.json"))) (FileSystem.empty (.ofText (text "/w"))).top = none := rfl
    exact hnone ▸ nofun

/-- A tree with a space key and without surrogates whose pages are too deep to be saved. -/
theorem deep_tree_is_not_saved :
    (∀ s ∈ (nestedTree 128).texts, s.hasSurrogate = false) ∧
      Text.isBlank (nestedTree 128).spaceKey = false ∧
      ∃ failure, (nestedTree 128).toDatum.payload = .error failure := by
  have hplain : ∀ s ∈ (nestedTree 128).texts, s.hasSurrogate = false :=
    forall_mem_texts_nestedTree 128 (by decide)
  have hkey : Text.isBlank (nestedTree 128).spaceKey = false := by decide
  refine ⟨hplain, hkey, (exists_failure_iff hplain).mpr ?_⟩
  rw [isShallow_nestedTree_iff]
  decide

end Metadata

end PageTree
