import PageTree.Proofs.SavedTree
import PageTree.Proofs.Yaml.FlowNodes

/-!
# Saved trees under any suffix

The suffix of a file's path decides which of two readers gets the text, and a tree is saved in a form that is
meant for only one of them. The other one reads it as YAML, where a text can turn into a date or a truth
value, lose the blanks at its ends or be folded, and where a key is one only if its colon comes soon. None of
this happens to a saved tree whose texts can be typed (`load_saved_under_any_suffix`): all of them are quoted,
all stand on one line, and the names of the fields are short.
-/

set_option autoImplicit false

namespace PageTree

/-! ## Trees of texts that can be typed -/

/-- Fields with short names that hold what is made of texts, or their default. -/
theorem isTextual_withoutDefaults {fields : List (Text × Value)}
    (h : ∀ f ∈ fields, Text.IsShortKey f.1 ∧ (isDefault f.2 = false → f.2.IsTextual)) :
    (withoutDefaults fields).IsTextual := by
  refine Value.membersTextual_iff.mpr fun f hf => ?_
  obtain ⟨hmem, hkept⟩ := List.mem_filter.mp hf
  obtain ⟨hkey, hvalue⟩ := h f hmem
  exact ⟨hkey, hvalue (by simpa using hkept)⟩

/-- An array of texts that can be typed is made of them. -/
theorem isTextual_array_str {texts : List Text} (h : ∀ s ∈ texts, Text.isTypeable s = true) :
    (Value.array (texts.map .str)).IsTextual := by
  refine Value.allTextual_iff.mpr fun v hv => ?_
  obtain ⟨s, hs, rfl⟩ := List.mem_map.mp hv
  exact h s hs

mutual

/-- The value of a page whose texts can be typed is made of them. -/
theorem Page.isTextual_toValue : (page : Page) → (∀ s ∈ page.texts, Text.isTypeable s = true) →
    page.toValue.IsTextual
  | ⟨title, contentPath, attachments, children⟩, h => by
      simp only [Page.texts, List.cons_append, List.forall_mem_cons, List.forall_mem_append] at h
      obtain ⟨htitle, hcontent, hattachments, hchildren⟩ := h
      have hnames : ∀ name ∈ pageNames, Text.IsShortKey name := by decide
      simp only [pageNames, List.forall_mem_cons] at hnames
      refine isTextual_withoutDefaults ?_
      simp only [List.forall_mem_cons]
      exact ⟨⟨hnames.1, fun _ => htitle⟩, ⟨hnames.2.1, fun _ => hcontent⟩,
        ⟨hnames.2.2.1, fun _ => isTextual_array_str hattachments⟩,
        ⟨hnames.2.2.2.1, fun _ => Page.allTextual_toValues children hchildren⟩, by simp⟩

/-- The values of pages whose texts can be typed are made of them. -/
theorem Page.allTextual_toValues : (pages : List Page) →
    (∀ s ∈ Page.textsOf pages, Text.isTypeable s = true) → Value.AllTextual (Page.toValues pages)
  | [], _ => trivial
  | page :: pages, h => by
      simp only [Page.textsOf, List.forall_mem_append] at h
      exact ⟨Page.isTextual_toValue page h.1, Page.allTextual_toValues pages h.2⟩

end

namespace Metadata

/-- The value of a tree whose texts can be typed is made of them. -/
theorem isTextual_toValue {m : Metadata} (h : ∀ s ∈ m.texts, Text.isTypeable s = true) :
    m.toValue.IsTextual := by
  simp only [Metadata.texts, List.cons_append, List.forall_mem_cons, List.forall_mem_append] at h
  obtain ⟨hspace, hpages, hparents⟩ := h
  have hnames : ∀ name ∈ treeNames, Text.IsShortKey name := by decide
  simp only [treeNames, List.forall_mem_cons] at hnames
  have hparent : isDefault (optionalValue m.parentId) = false → (optionalValue m.parentId).IsTextual := by
    cases hid : m.parentId with
    | none => exact fun h => absurd h (by decide)
    | some id => exact fun _ => hparents id (by simp [hid])
  refine isTextual_withoutDefaults ?_
  simp only [List.forall_mem_cons]
  exact ⟨⟨hnames.1, fun _ => hspace⟩,
    ⟨hnames.2.1, fun _ => Page.allTextual_toValues m.pages hpages⟩, ⟨hnames.2.2.1, hparent⟩, by simp⟩

/-! ## Loading them -/

variable {m : Metadata}

/-- The JSON form of such a tree describes the tree to both readers. -/
theorem ofText_write (h : ∀ s ∈ m.texts, Text.isTypeable s = true)
    (hfree : Json.obstacle? Json.maxNesting m.toValue = none) (path : Path) :
    ofText path (Json.write m.toValue) = .ok m := by
  unfold ofText
  split
  · rw [ofYaml, Yaml.read_write (isTextual_toValue h) (faithful_toValue m)]
    exact ofValue_toValue m
  · rw [ofJson, Json.read?_write Json.strict (faithful_toValue m) hfree]
    exact ofValue_toValue m

/-- A tree with a space key, all of whose texts can be typed, is saved just if its pages are not too deep
below each other, and then it is loaded as it is, whatever the suffix of the file's path: the bytes of its
JSON form are loaded as the tree when they are read as YAML, too. -/
theorem load_saved_under_any_suffix (htypeable : ∀ s ∈ m.texts, Text.isTypeable s = true)
    (hkey : Text.isBlank m.spaceKey = false) :
    ((∃ payload, m.toDatum.payload = .ok payload) ↔ m.IsShallow) ∧
    ∀ payload, m.toDatum.payload = .ok payload → ∃ b, Utf8.encode? payload = some b ∧
      ∀ path w,
        (w.files.read path = .ok b → ∃ done, load path w = .ok m done) ∧
        (w.files.CanHold path →
          ∃ done, load path { w with files := w.files.write path (.file b) } = .ok m done) := by
  have hplain : ∀ s ∈ m.texts, s.hasSurrogate = false := fun s hs =>
    Text.hasSurrogate_of_isTypeable (htypeable s hs)
  refine ⟨exists_payload_iff hplain, ?_⟩
  intro payload hpayload
  obtain ⟨b, hencode, -⟩ := ofPayload_saved hpayload
  rw [Datum.payload_eq_ok, toValue_toDatum] at hpayload
  obtain ⟨hfree, rfl⟩ := hpayload
  have hwritten := Yaml.isTypeable_write m.toValue (isTextual_toValue htypeable)
  have hload : ∀ path w, w.files.read path = .ok b → ∃ done, load path w = .ok m done := by
    intro path w hread
    have htext : w.files.textAt path (.metadataUnreadable path) = .ok (Json.write m.toValue) :=
      FileSystem.textAt_eq_ok.mpr ⟨b, _, hread, Utf8.decode?_encode? hencode,
        Text.unifyLines_of_isTypeable hwritten⟩
    refine ⟨announced path w, ?_⟩
    rw [load_apply, htext]
    dsimp only
    rw [ofText_write htypeable hfree]
    dsimp only
    rw [hkey]
    rfl
  refine ⟨b, hencode, fun path w => ⟨hload path w, fun hold => ?_⟩⟩
  exact hload path _ (FileSystem.read_write hold b)

/-- A tree of texts that mean something in YAML when they are not quoted: a truth value, null, a date, a mark of
a document, an alias, a tag, a comment, a key; with blanks at both ends, a mark and a backslash. -/
def wordyTree : Metadata :=
  ⟨text "yes", [⟨text "2024-01-01", text "null", [text "--- ", text "*a", text "!!int 1"],
    [⟨text "  : # & - ", text "\"\\n", [], []⟩]⟩], some (text "~")⟩

/-- The wordy tree is saved and loaded as it is from a file with a YAML suffix. -/
theorem load_saved_wordyTree :
    (∀ s ∈ wordyTree.texts, Text.isTypeable s = true) ∧ Text.isBlank wordyTree.spaceKey = false ∧
      wordyTree.IsShallow ∧ isYamlPath (.ofText (text "m.YmL")) = true ∧
      ∃ payload b, wordyTree.toDatum.payload = .ok payload ∧ Utf8.encode? payload = some b ∧
        ∃ done, load (.ofText (text "m.YmL")) (worldWith (.ofText (text "m.YmL")) b) =
          .ok wordyTree done := by
  have htypeable : ∀ s ∈ wordyTree.texts, Text.isTypeable s = true := by decide
  have hkey : Text.isBlank wordyTree.spaceKey = false := by decide
  have hsuffix : isYamlPath (.ofText (text "m.YmL")) = true := by decide +kernel
  have hshallow : wordyTree.IsShallow := by decide
  refine ⟨htypeable, hkey, hshallow, hsuffix, ?_⟩
  obtain ⟨hsaved, hloaded⟩ := load_saved_under_any_suffix htypeable hkey
  obtain ⟨payload, hpayload⟩ := hsaved.mpr hshallow
  obtain ⟨b, hencode, hload⟩ := hloaded payload hpayload
  refine ⟨payload, b, hpayload, hencode, ?_⟩
  apply (hload (.ofText (text "m.YmL")) (.start (.empty (.ofText (text "/w"))) [])).2
  refine ⟨⟨[(text "m.YmL").flatMap Utf8.unit], [(text "w").flatMap Utf8.unit],
    (text "m.YmL").flatMap Utf8.unit, _, [], rfl, rfl, ?_, ?_, rfl, rfl⟩, ?_⟩
  · decide
  · decide
  · intro entries
    have hnone : FileSystem.lookup? ((FileSystem.empty (.ofText (text "/w"))).namesFromTop
        (.ofText (text "m.YmL"))) (FileSystem.empty (.ofText (text "/w"))).top = none := rfl
    exact hnone ▸ nofun

/-- A tree with a space key all of whose texts can be typed. It has no JSON form, so there is nothing to load
under any suffix. -/
theorem deep_typeable_tree_is_not_saved :
    (∀ s ∈ (nestedTree 128).texts, Text.isTypeable s = true) ∧
      Text.isBlank (nestedTree 128).spaceKey = false ∧
      ∃ failure, (nestedTree 128).toDatum.payload = .error failure := by
  have htypeable : ∀ s ∈ (nestedTree 128).texts, Text.isTypeable s = true :=
    forall_mem_texts_nestedTree 128 (by decide)
  have hkey : Text.isBlank (nestedTree 128).spaceKey = false := by decide
  have hplain : ∀ s ∈ (nestedTree 128).texts, s.hasSurrogate = false := fun s hs =>
    Text.hasSurrogate_of_isTypeable (htypeable s hs)
  refine ⟨htypeable, hkey, (exists_failure_iff hplain).mpr ?_⟩
  rw [isShallow_nestedTree_iff]
  decide

end Metadata

end PageTree
