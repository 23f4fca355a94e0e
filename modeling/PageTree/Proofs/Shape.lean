import PageTree.Page
import PageTree.Proofs.Basic
import Mathlib.Data.List.Forall2

/-!
# Which values are page trees

Three relations say what a value has to do with a page tree, without a word about how it is read. A value
*conforms* (`IsPage`, `IsTree`) if the members that matter are there and are of the right kind; it
*describes* a page or a tree (`DescribesPage`, `DescribesTree`) if these members are its parts; two values
are *alike* (`AlikePage`, `AlikeTree`) if they agree in the members that matter, whatever the order of their
members and whatever else they hold. All three go down through the children to any depth.

`Metadata.shape_exact` ties the reading of a tree to them.
-/

set_option autoImplicit false

namespace PageTree

/-! ## Conforming values -/

/-- A value with what is asked of a page: a title and a content file, and if there are attachments and
children, an array of texts and an array of pages. -/
inductive IsPage : Value → Prop
  | object (members : Members)
      (title : ∃ s, Members.find? (text "title") members = some (.str s))
      (contentPath : ∃ s, Members.find? (text "contentFilePath") members = some (.str s))
      (attachments : ∀ v, Members.find? (text "attachments") members = some v →
        ∃ paths : List Text, v = .array (paths.map .str))
      (children : ∀ v, Members.find? (text "children") members = some v → ∃ items, v = .array items)
      (pages : ∀ items, Members.find? (text "children") members = some (.array items) →
        ∀ item ∈ items, IsPage item) :
      IsPage (.object members)

/-- A value with what is asked of a tree: a space key, and if there are pages and a page above them, an
array of pages and a text or null. -/
inductive IsTree : Value → Prop
  | object (members : Members)
      (spaceKey : ∃ s, Members.find? (text "spaceKey") members = some (.str s))
      (pages : ∀ v, Members.find? (text "pages") members = some v →
        ∃ items, v = .array items ∧ ∀ item ∈ items, IsPage item)
      (parentId : ∀ v, Members.find? (text "parentContentId") members = some v →
        v = .null ∨ ∃ s, v = .str s) :
      IsTree (.object members)

/-! ## Descriptions -/

/-- The texts of an optional member: those of an array, and none if the member is not there. -/
inductive DescribesTexts : Option Value → List Text → Prop
  | absent : DescribesTexts none []
  | array (texts : List Text) : DescribesTexts (some (.array (texts.map .str))) texts

/-- The text of an optional member, if it is there and not null. -/
inductive DescribesText : Option Value → Option Text → Prop
  | absent : DescribesText none none
  | null : DescribesText (some .null) none
  | text (s : Text) : DescribesText (some (.str s)) (some s)

mutual

/-- A value describes a page. -/
inductive DescribesPage : Value → Page → Prop
  | object {members : Members} {title contentPath : Text} {attachments : List Text}
      {children : List Page}
      (htitle : Members.find? (text "title") members = some (.str title))
      (hcontentPath : Members.find? (text "contentFilePath") members = some (.str contentPath))
      (hattachments : DescribesTexts (Members.find? (text "attachments") members) attachments)
      (hchildren : DescribesForest (Members.find? (text "children") members) children) :
      DescribesPage (.object members) ⟨title, contentPath, attachments, children⟩

/-- The pages of an optional member: those of an array, and none if the member is not there. -/
inductive DescribesForest : Option Value → List Page → Prop
  | absent : DescribesForest none []
  | array {items : List Value} {pages : List Page} (hpages : DescribesPages items pages) :
      DescribesForest (some (.array items)) pages

/-- Values describe pages, one each and in the same order. -/
inductive DescribesPages : List Value → List Page → Prop
  | nil : DescribesPages [] []
  | cons {v : Value} {items : List Value} {page : Page} {pages : List Page}
      (hfirst : DescribesPage v page) (hrest : DescribesPages items pages) :
      DescribesPages (v :: items) (page :: pages)

end

/-- A value describes a tree. -/
inductive DescribesTree : Value → Metadata → Prop
  | object {members : Members} {spaceKey : Text} {pages : List Page} {parentId : Option Text}
      (hspaceKey : Members.find? (text "spaceKey") members = some (.str spaceKey))
      (hpages : DescribesForest (Members.find? (text "pages") members) pages)
      (hparentId : DescribesText (Members.find? (text "parentContentId") members) parentId) :
      DescribesTree (.object members) ⟨spaceKey, pages, parentId⟩

/-- What describes texts is an array of texts. -/
theorem DescribesTexts.exists_texts {v : Value} {texts : List Text}
    (h : DescribesTexts (some v) texts) : ∃ paths : List Text, v = .array (paths.map .str) := by
  cases h with
  | array texts => exact ⟨texts, rfl⟩

/-- What describes a forest is an array. -/
theorem DescribesForest.exists_items {v : Value} {pages : List Page}
    (h : DescribesForest (some v) pages) : ∃ items, v = .array items := by
  cases h with
  | array hpages => exact ⟨_, rfl⟩

/-! ## Likeness -/

mutual

/-- Two values are the same to a reader of pages. -/
inductive AlikePage : Value → Value → Prop
  | refl (v : Value) : AlikePage v v
  | object {members others : Members}
      (htitle : Members.find? (text "title") members = Members.find? (text "title") others)
      (hcontentPath : Members.find? (text "contentFilePath") members =
        Members.find? (text "contentFilePath") others)
      (hattachments : Members.find? (text "attachments") members =
        Members.find? (text "attachments") others)
      (hchildren : AlikeForest (Members.find? (text "children") members)
        (Members.find? (text "children") others)) :
      AlikePage (.object members) (.object others)

/-- Two optional members are the same to a reader of arrays of pages. -/
inductive AlikeForest : Option Value → Option Value → Prop
  | refl (v : Option Value) : AlikeForest v v
  | array {items others : List Value} (hitems : AlikePages items others) :
      AlikeForest (some (.array items)) (some (.array others))

/-- Values are the same to a reader of pages, one by one. -/
inductive AlikePages : List Value → List Value → Prop
  | nil : AlikePages [] []
  | cons {v w : Value} {items others : List Value} (hfirst : AlikePage v w)
      (hrest : AlikePages items others) : AlikePages (v :: items) (w :: others)

end

/-- Two values are the same to a reader of trees. -/
inductive AlikeTree : Value → Value → Prop
  | object {members others : Members}
      (hspaceKey : Members.find? (text "spaceKey") members = Members.find? (text "spaceKey") others)
      (hpages : AlikeForest (Members.find? (text "pages") members)
        (Members.find? (text "pages") others))
      (hparentId : Members.find? (text "parentContentId") members =
        Members.find? (text "parentContentId") others) :
      AlikeTree (.object members) (.object others)

/-! ## Fields -/

section Fields

variable {α β γ : Type} {name : Text} {members : Members}

/-- Two fields can be read just if each of them can. -/
theorem Collected.both_eq_ok {x : Collected α} {y : Collected β} {r : α × β} :
    x.both y = .ok r ↔ x = .ok r.1 ∧ y = .ok r.2 := by
  obtain ⟨a, b⟩ := r
  cases x <;> cases y <;> simp [Collected.both]

/-- A record can be read just if its fields can, and is made from them. -/
theorem Collected.toRecord_eq_ok {make : α → β} {x : Collected α} {r : β} :
    x.toRecord make = .ok r ↔ ∃ a, x = .ok a ∧ make a = r := by
  cases x <;> simp [Collected.toRecord]

/-- A field can be read just if its value can. -/
theorem Collected.under_eq_ok {x : Except Mismatch α} {a : α} :
    Collected.under name x = .ok a ↔ x = .ok a := by
  cases x <;> simp [Collected.under]

namespace Shape

/-- A value is read as a text just if it is the text. -/
theorem text_eq_ok {v : Value} {s : Text} : Shape.text v = .ok s ↔ v = .str s := by
  cases v <;> simp [Shape.text]

/-- A required field is read just if its member is there and can be read. -/
theorem required_eq_ok {shape : Shape α} {a : α} :
    required name shape (.object members) = .ok a ↔
      ∃ v, Members.find? name members = some v ∧ shape v = .ok a := by
  unfold required member
  rw [Collected.under_eq_ok]
  dsimp only
  cases Members.find? name members <;> simp [Except.bind]

/-- Only an object has members, and only it can be asked for them. -/
theorem required_of_not_object {shape : Shape α} {v : Value} {a : α}
    (hobject : ∀ members, v ≠ .object members) : required name shape v ≠ .ok a := by
  unfold required
  rw [Ne, Collected.under_eq_ok]
  cases v with
  | object members => exact absurd rfl (hobject members)
  | _ => simp [member, Except.bind]

/-- An object that is asked for an optional member looks it up. -/
theorem optional_object (otherwise : α) (shape : Shape α) (members : Members) :
    optional name otherwise shape (.object members) =
      Collected.under name
        (match Members.find? name members with
          | some v => shape v
          | none => .ok otherwise) := by
  unfold optional mentions Members.has required member
  rcases Option.eq_none_or_eq_some (Members.find? name members) with hfind | ⟨v, hfind⟩
  · simp [hfind, Collected.under]
  · simp [hfind, Except.bind]

/-- An optional member yields what it describes, if an absent one describes the default. -/
theorem optional_eq_ok {shape : Shape α} {otherwise a : α} {Describes : Option Value → α → Prop}
    (habsent : Describes none a ↔ otherwise = a)
    (hpresent : ∀ v, shape v = .ok a ↔ Describes (some v) a) :
    optional name otherwise shape (.object members) = .ok a ↔
      Describes (Members.find? name members) a := by
  rw [optional_object, Collected.under_eq_ok]
  cases Members.find? name members with
  | none => simp [habsent]
  | some v => exact hpresent v

/-- An object can be searched for names. -/
theorem searched_object {shape : Shape α} (members : Members) :
    searched shape (.object members) = shape (.object members) := rfl

end Shape

end Fields

/-! ## Reading texts -/

/-- Values are read as elements just if the first one and the others are. -/
theorem Shape.elements_cons_eq_ok {α : Type} {shape : Shape α} {v : Value} {rest : List Value}
    {all : List α} :
    Shape.elements shape (v :: rest) = .ok all ↔
      ∃ a others, shape v = .ok a ∧ Shape.elements shape rest = .ok others ∧ a :: others = all := by
  show (shape v).bind (fun a => (Shape.elements shape rest).bind fun others => .ok (a :: others)) =
    .ok all ↔ _
  simp [bind_eq_ok]

/-- Values are read as texts just if they are the texts. -/
theorem Shape.elements_text_eq_ok {items : List Value} {texts : List Text} :
    Shape.elements Shape.text items = .ok texts ↔ items = texts.map .str := by
  induction items generalizing texts with
  | nil => cases texts <;> simp [Shape.elements]
  | cons v rest ih =>
      rw [Shape.elements_cons_eq_ok]
      cases texts with
      | nil => simp
      | cons s others => simp [Shape.text_eq_ok, ih]

/-- A value is read as a list of texts just if it is the array of them. -/
theorem Shape.list_text_eq_ok {v : Value} {texts : List Text} :
    Shape.list Shape.text v = .ok texts ↔ v = .array (texts.map .str) := by
  cases v with
  | array items => simp [Shape.list, Shape.elements_text_eq_ok]
  | _ => simp [Shape.list]

/-- A value is read as an optional text just if it describes it. -/
theorem Shape.optionalText_eq_ok {v : Value} {s : Option Text} :
    Shape.optionalText v = .ok s ↔ DescribesText (some v) s := by
  constructor
  · intro h
    cases v with
    | null => exact Except.ok.inj h ▸ .null
    | str t => exact Except.ok.inj h ▸ .text t
    | _ => exact absurd h (by simp [Shape.optionalText, Shape.text, Except.map])
  · intro h
    cases h <;> rfl

/-- A required text is read just if its member is the text. -/
theorem Shape.requiredText_eq_ok {name : Text} {members : Members} {s : Text} :
    Shape.required name Shape.text (.object members) = .ok s ↔
      Members.find? name members = some (.str s) := by
  rw [Shape.required_eq_ok]
  simp [Shape.text_eq_ok]

/-- Optional texts are read just if their member describes them. -/
theorem Shape.optionalTexts_eq_ok {name : Text} {members : Members} {texts : List Text} :
    Shape.optional name [] (Shape.list Shape.text) (.object members) = .ok texts ↔
      DescribesTexts (Members.find? name members) texts := by
  apply Shape.optional_eq_ok
  · constructor
    · rintro ⟨⟩
      rfl
    · rintro rfl
      exact .absent
  · intro v
    rw [Shape.list_text_eq_ok]
    constructor
    · rintro rfl
      exact .array texts
    · rintro ⟨⟩
      rfl

/-- A field with an optional text is read just if its member describes it. -/
theorem Shape.optionalTextField_eq_ok {name : Text} {members : Members} {s : Option Text} :
    Shape.optional name none Shape.optionalText (.object members) = .ok s ↔
      DescribesText (Members.find? name members) s := by
  apply Shape.optional_eq_ok _ fun v => Shape.optionalText_eq_ok
  constructor
  · rintro ⟨⟩
    rfl
  · rintro rfl
    exact .absent

/-! ## Reading pages -/

/-- Values are read as pages just if the first one and the others are. -/
theorem Page.elementShapes_cons_eq_ok {v : Value} {rest : List Value} {all : List Page} :
    Page.elementShapes (v :: rest) = .ok all ↔
      ∃ page pages, Page.shape v = .ok page ∧ Page.elementShapes rest = .ok pages ∧
        page :: pages = all := by
  rw [Page.elementShapes]
  cases Page.shape v with
  | error e => simp
  | ok page => cases Page.elementShapes rest <;> simp

/-- A page is read from an object just if each of its fields is. -/
theorem Page.shapeWith_eq_ok {children : Collected (List Page)} {members : Members} {page : Page} :
    Page.shapeWith children (.object members) = .ok page ↔
      Members.find? (text "title") members = some (.str page.title) ∧
        Members.find? (text "contentFilePath") members = some (.str page.contentPath) ∧
        DescribesTexts (Members.find? (text "attachments") members) page.attachments ∧
        children = .ok page.children := by
  unfold Page.shapeWith
  rw [Shape.searched_object, Collected.toRecord_eq_ok]
  simp only [Collected.both_eq_ok, Shape.requiredText_eq_ok, Shape.optionalTexts_eq_ok]
  constructor
  · rintro ⟨fields, hfields, rfl⟩
    exact hfields
  · intro h
    obtain ⟨title, contentPath, attachments, children⟩ := page
    exact ⟨(title, contentPath, attachments, children), h, rfl⟩

/-- What is no object is no page. -/
theorem Page.shapeWith_of_not_object {children : Collected (List Page)} {v : Value} {page : Page}
    (h : ∀ members, v ≠ .object members) : Page.shapeWith children v ≠ .ok page := by
  unfold Page.shapeWith Shape.searched
  split
  · rw [Ne, Collected.toRecord_eq_ok]
    rintro ⟨fields, hfields, -⟩
    exact Shape.required_of_not_object h (Collected.both_eq_ok.mp hfields).1
  · simp

/-- An object describes a page just if each of its members describes the field. -/
theorem describesPage_iff {members : Members} {page : Page} :
    DescribesPage (.object members) page ↔
      Members.find? (text "title") members = some (.str page.title) ∧
        Members.find? (text "contentFilePath") members = some (.str page.contentPath) ∧
        DescribesTexts (Members.find? (text "attachments") members) page.attachments ∧
        DescribesForest (Members.find? (text "children") members) page.children := by
  obtain ⟨title, contentPath, attachments, children⟩ := page
  constructor
  · rintro ⟨htitle, hcontentPath, hattachments, hchildren⟩
    exact ⟨htitle, hcontentPath, hattachments, hchildren⟩
  · rintro ⟨htitle, hcontentPath, hattachments, hchildren⟩
    exact .object htitle hcontentPath hattachments hchildren

mutual

/-- A value is read as the page that it describes, and as nothing else. -/
theorem Page.shape_eq_ok (v : Value) (page : Page) :
    Page.shape v = .ok page ↔ DescribesPage v page := by
  cases v with
  | object members =>
      rw [Page.shape, Page.shapeWith_eq_ok, Collected.under_eq_ok, describesPage_iff,
        Page.childrenShape_eq_ok members]
  | _ => exact ⟨fun h => (Page.shapeWith_of_not_object (by simp) h).elim, nofun⟩

/-- The pages below a page are read just if their member describes them. -/
theorem Page.childrenShape_eq_ok : (members : List (Text × Value)) →
    ∀ pages, Page.childrenShape members = .ok pages ↔
      DescribesForest (Members.find? (text "children") members) pages
  | [], pages => by
      simp only [Page.childrenShape, Members.find?, Except.ok.injEq]
      constructor
      · rintro rfl
        exact .absent
      · rintro ⟨⟩
        rfl
  | (key, v) :: rest, pages => by
      simp only [Page.childrenShape, Members.find?]
      split
      · exact Page.listShape_eq_ok v pages
      · exact Page.childrenShape_eq_ok rest pages

/-- A value is read as a forest just if it describes the forest. -/
theorem Page.listShape_eq_ok (v : Value) (pages : List Page) :
    Page.listShape v = .ok pages ↔ DescribesForest (some v) pages := by
  cases v with
  | array items =>
      rw [Page.listShape, Page.elementShapes_eq_ok items]
      constructor
      · exact .array
      · intro h
        cases h with
        | array hpages => exact hpages
  | _ => exact ⟨nofun, nofun⟩

/-- Values are read as pages just if they describe them. -/
theorem Page.elementShapes_eq_ok : (items : List Value) →
    ∀ pages, Page.elementShapes items = .ok pages ↔ DescribesPages items pages
  | [], pages => by
      simp only [Page.elementShapes, Except.ok.injEq]
      constructor
      · rintro rfl
        exact .nil
      · rintro ⟨⟩
        rfl
  | v :: rest, pages => by
      rw [Page.elementShapes_cons_eq_ok]
      constructor
      · rintro ⟨page, others, hfirst, hrest, rfl⟩
        exact .cons ((Page.shape_eq_ok v page).mp hfirst)
          ((Page.elementShapes_eq_ok rest others).mp hrest)
      · intro h
        cases h with
        | cons hfirst hrest =>
            exact ⟨_, _, (Page.shape_eq_ok v _).mpr hfirst,
              (Page.elementShapes_eq_ok rest _).mpr hrest, rfl⟩

end

/-! ## Reading trees -/

/-- An optional forest is read just if its member describes it. -/
theorem Shape.optionalForest_eq_ok {name : Text} {members : Members} {pages : List Page} :
    Shape.optional name [] Page.listShape (.object members) = .ok pages ↔
      DescribesForest (Members.find? name members) pages := by
  apply Shape.optional_eq_ok _ fun v => Page.listShape_eq_ok v pages
  constructor
  · rintro ⟨⟩
    rfl
  · rintro rfl
    exact .absent

/-- A value is read as the tree that it describes, and as nothing else. -/
theorem Metadata.shape_eq_ok {v : Value} {m : Metadata} :
    Metadata.shape v = .ok m ↔ DescribesTree v m := by
  by_cases h : ∃ members, v = .object members
  · obtain ⟨members, rfl⟩ := h
    unfold Metadata.shape
    rw [Shape.searched_object, Collected.toRecord_eq_ok]
    simp only [Collected.both_eq_ok, Shape.requiredText_eq_ok, Shape.optionalForest_eq_ok,
      Shape.optionalTextField_eq_ok]
    constructor
    · rintro ⟨fields, ⟨hspaceKey, hpages, hparentId⟩, rfl⟩
      exact .object hspaceKey hpages hparentId
    · rintro ⟨hspaceKey, hpages, hparentId⟩
      exact ⟨(_, _, _), ⟨hspaceKey, hpages, hparentId⟩, rfl⟩
  · constructor
    · intro hshape
      unfold Metadata.shape Shape.searched at hshape
      split at hshape
      · obtain ⟨fields, hfields, -⟩ := Collected.toRecord_eq_ok.mp hshape
        exact absurd (Collected.both_eq_ok.mp hfields).1
          (Shape.required_of_not_object fun members hv => h ⟨members, hv⟩)
      · exact absurd hshape (by simp)
    · rintro ⟨hspaceKey, -, -⟩
      exact absurd ⟨_, rfl⟩ h

/-! ## What conforms describes something -/

mutual

/-- What describes a page is one. -/
theorem DescribesPage.isPage {v : Value} {page : Page} : DescribesPage v page → IsPage v
  | .object htitle hcontentPath hattachments hchildren =>
      .object _ ⟨_, htitle⟩ ⟨_, hcontentPath⟩ (fun _ hv => (hv ▸ hattachments).exists_texts)
        (fun _ hv => (hv ▸ hchildren).exists_items)
        (fun _ hv => DescribesForest.isPage hchildren hv)

/-- The items of what describes a forest are pages. -/
theorem DescribesForest.isPage {field : Option Value} {pages : List Page} {items : List Value} :
    DescribesForest field pages → field = some (.array items) → ∀ item ∈ items, IsPage item
  | .array hpages, h => by
      injection h with h
      injection h with h
      subst h
      exact DescribesPages.isPage hpages

/-- Values that describe pages are pages. -/
theorem DescribesPages.isPage {items : List Value} {pages : List Page} :
    DescribesPages items pages → ∀ item ∈ items, IsPage item
  | .nil => by simp
  | .cons hfirst hrest => by
      intro item hitem
      rcases List.mem_cons.mp hitem with rfl | hitem
      · exact hfirst.isPage
      · exact hrest.isPage item hitem

end

/-- Values that describe a page each describe pages. -/
theorem exists_describesPages {items : List Value} (h : ∀ item ∈ items, ∃ page, DescribesPage item page) :
    ∃ pages, DescribesPages items pages := by
  induction items with
  | nil => exact ⟨[], .nil⟩
  | cons v rest ih =>
      obtain ⟨page, hpage⟩ := h v List.mem_cons_self
      obtain ⟨pages, hpages⟩ := ih fun item hitem => h item (List.mem_cons_of_mem v hitem)
      exact ⟨page :: pages, .cons hpage hpages⟩

/-- A member that is an array of texts, if it is there, describes texts. -/
theorem exists_describesTexts {field : Option Value}
    (h : ∀ v, field = some v → ∃ paths : List Text, v = .array (paths.map .str)) :
    ∃ texts, DescribesTexts field texts := by
  cases field with
  | none => exact ⟨[], .absent⟩
  | some v =>
      obtain ⟨paths, rfl⟩ := h v rfl
      exact ⟨paths, .array paths⟩

/-- A member that is an array of pages, if it is there, describes a forest. -/
theorem exists_describesForest {field : Option Value}
    (harray : ∀ v, field = some v → ∃ items, v = .array items)
    (hpages : ∀ items, field = some (.array items) → ∀ item ∈ items, ∃ page, DescribesPage item page) :
    ∃ pages, DescribesForest field pages := by
  cases field with
  | none => exact ⟨[], .absent⟩
  | some v =>
      obtain ⟨items, rfl⟩ := harray v rfl
      obtain ⟨pages, h⟩ := exists_describesPages (hpages items rfl)
      exact ⟨pages, .array h⟩

/-- A value is a page just if it describes one. -/
theorem isPage_iff {v : Value} : IsPage v ↔ ∃ page, DescribesPage v page := by
  constructor
  · intro h
    induction h with
    | object members title contentPath attachments children pages ih =>
        obtain ⟨s, htitle⟩ := title
        obtain ⟨path, hpath⟩ := contentPath
        obtain ⟨texts, htexts⟩ := exists_describesTexts attachments
        obtain ⟨forest, hforest⟩ := exists_describesForest children ih
        exact ⟨_, .object htitle hpath htexts hforest⟩
  · rintro ⟨page, h⟩
    exact h.isPage

/-- A value is a tree just if it describes one. -/
theorem isTree_iff {v : Value} : IsTree v ↔ ∃ m, DescribesTree v m := by
  constructor
  · rintro ⟨members, ⟨key, hkey⟩, hpages, hparent⟩
    obtain ⟨forest, hforest⟩ : ∃ pages, DescribesForest (Members.find? (text "pages") members) pages := by
      apply exists_describesForest
      · intro v hv
        obtain ⟨items, hitems, -⟩ := hpages v hv
        exact ⟨items, hitems⟩
      · intro items hv item hitem
        obtain ⟨others, hothers, hall⟩ := hpages _ hv
        obtain rfl := Value.array.inj hothers
        exact isPage_iff.mp (hall item hitem)
    obtain ⟨parentId, hparentId⟩ : ∃ s, DescribesText (Members.find? (text "parentContentId") members) s := by
      cases hfind : Members.find? (text "parentContentId") members with
      | none => exact ⟨none, .absent⟩
      | some v =>
          obtain rfl | ⟨s, rfl⟩ := hparent v hfind
          · exact ⟨none, .null⟩
          · exact ⟨some s, .text s⟩
    exact ⟨_, .object hkey hforest hparentId⟩
  · rintro ⟨m, hkey, hforest, hparent⟩
    refine .object _ ⟨_, hkey⟩ ?_ ?_
    · intro v hv
      rw [hv] at hforest
      obtain ⟨items, rfl⟩ := hforest.exists_items
      exact ⟨items, rfl, hforest.isPage rfl⟩
    · intro v hv
      rw [hv] at hparent
      cases hparent with
      | null => exact .inl rfl
      | text s => exact .inr ⟨s, rfl⟩

/-! ## Like values are read alike -/

/-- The pages below a page are read from the member that holds them. -/
theorem Page.childrenShape_eq (members : Members) :
    Page.childrenShape members =
      match Members.find? (text "children") members with
      | some v => Page.listShape v
      | none => .ok [] := by
  induction members with
  | nil => rfl
  | cons m rest ih =>
      obtain ⟨key, v⟩ := m
      simp only [Page.childrenShape, Members.find?]
      split
      · rfl
      · exact ih

/-- A required field depends on its own member alone. -/
theorem Shape.required_congr {α : Type} {name : Text} {members others : Members}
    (h : Members.find? name members = Members.find? name others) (shape : Shape α) :
    Shape.required name shape (.object members) = Shape.required name shape (.object others) := by
  simp only [Shape.required, Shape.member, h]

mutual

/-- Values that are the same to a reader of pages are read alike, also if they are none. -/
theorem AlikePage.shape_eq {v w : Value} : AlikePage v w → Page.shape v = Page.shape w
  | .refl _ => rfl
  | .object htitle hcontentPath hattachments hchildren => by
      rw [Page.shape, Page.shape, Page.childrenShape_eq, Page.childrenShape_eq,
        AlikeForest.shape_eq hchildren]
      simp only [Page.shapeWith, Shape.searched_object, Shape.optional_object,
        Shape.required_congr htitle, Shape.required_congr hcontentPath, hattachments]

/-- Alike members are read as the same forest, or with the same mismatch. -/
theorem AlikeForest.shape_eq {v w : Option Value} : AlikeForest v w →
    (match v with
      | some v => Page.listShape v
      | none => .ok []) =
    (match w with
      | some w => Page.listShape w
      | none => .ok [])
  | .refl _ => rfl
  | .array hitems => AlikePages.shapes_eq hitems

/-- Alike values are read as the same pages, or with the same mismatch. -/
theorem AlikePages.shapes_eq {items others : List Value} : AlikePages items others →
    Page.elementShapes items = Page.elementShapes others
  | .nil => rfl
  | .cons hfirst hrest => by
      rw [Page.elementShapes, Page.elementShapes, hfirst.shape_eq, hrest.shapes_eq]

end

/-- Alike values are read as the same tree, or with the same mismatch. -/
theorem AlikeTree.shape_eq {v w : Value} (h : AlikeTree v w) :
    Metadata.shape v = Metadata.shape w := by
  obtain ⟨hspaceKey, hpages, hparentId⟩ := h
  simp only [Metadata.shape, Shape.searched_object, Shape.optional_object,
    Shape.required_congr hspaceKey, hpages.shape_eq, hparentId]

/-! ## Order and unknown members -/

namespace Members

variable {name : Text} {members others : Members}

/-- Where no key occurs twice, the value of a key is the one that stands with it. -/
theorem find?_eq_some_iff {v : Value} (hnodup : (members.map Prod.fst).Nodup) :
    find? name members = some v ↔ (name, v) ∈ members := by
  induction members with
  | nil => simp [find?]
  | cons m rest ih =>
      obtain ⟨k, w⟩ := m
      obtain ⟨hnew, hrest⟩ := List.nodup_cons.mp hnodup
      rw [find?, List.mem_cons]
      by_cases hk : k = name
      · subst hk
        have hnot : (k, v) ∉ rest := fun hmem => hnew (List.mem_map.mpr ⟨(k, v), hmem, rfl⟩)
        simp [hnot, eq_comm]
      · simp [hk, Ne.symm hk, ih hrest]

/-- A name that is kept finds the same member among those that are kept. -/
theorem find?_filter {names : List Text} (h : name ∈ names) :
    find? name (members.filter fun m => names.contains m.1) = find? name members := by
  induction members with
  | nil => rfl
  | cons m rest ih =>
      obtain ⟨k, w⟩ := m
      by_cases hk : k = name
      · subst hk
        rw [List.filter_cons_of_pos (by simpa using h)]
        simp [find?]
      · rw [List.filter_cons, find?, if_neg hk, ← ih]
        split
        · rw [find?, if_neg hk]
        · rfl

/-- Members agree in the values of names if those with these names are the same up to their order. -/
theorem find?_eq_of_perm {names : List Text} (hnodup : (members.map Prod.fst).Nodup)
    (hperm : (members.filter fun m => names.contains m.1).Perm
      (others.filter fun m => names.contains m.1)) (h : name ∈ names) :
    find? name members = find? name others := by
  have hknown : ((members.filter fun m => names.contains m.1).map Prod.fst).Nodup :=
    hnodup.sublist (List.filter_sublist.map Prod.fst)
  have hothers : ((others.filter fun m => names.contains m.1).map Prod.fst).Nodup :=
    (hperm.map Prod.fst).nodup_iff.mp hknown
  calc find? name members = find? name (members.filter fun m => names.contains m.1) :=
        (find?_filter h).symm
    _ = find? name (others.filter fun m => names.contains m.1) := ?_
    _ = find? name others := find?_filter h
  apply Option.ext
  intro v
  rw [find?_eq_some_iff hknown, find?_eq_some_iff hothers, hperm.mem_iff]

end Members

/-- The names that matter to a reader of pages. -/
def pageNames : List Text :=
  [text "title", text "contentFilePath", text "attachments", text "children"]

/-- The names that matter to a reader of trees. -/
def treeNames : List Text := [text "spaceKey", text "pages", text "parentContentId"]

/-- The order of members does not matter to a reader of pages, nor do members with other names. -/
theorem AlikePage.of_perm {members others : Members} (hnodup : (members.map Prod.fst).Nodup)
    (hperm : (members.filter fun m => pageNames.contains m.1).Perm
      (others.filter fun m => pageNames.contains m.1)) :
    AlikePage (.object members) (.object others) := by
  have hfind : ∀ name ∈ pageNames, Members.find? name members = Members.find? name others :=
    fun name hname => Members.find?_eq_of_perm hnodup hperm hname
  refine .object (hfind _ ?_) (hfind _ ?_) (hfind _ ?_) (hfind _ ?_ ▸ .refl _) <;>
    simp [pageNames]

/-- Objects whose members for a tree are the same in another order are alike. -/
theorem AlikeTree.of_perm {members others : Members} (hnodup : (members.map Prod.fst).Nodup)
    (hperm : (members.filter fun m => treeNames.contains m.1).Perm
      (others.filter fun m => treeNames.contains m.1)) :
    AlikeTree (.object members) (.object others) := by
  have hfind : ∀ name ∈ treeNames, Members.find? name members = Members.find? name others :=
    fun name hname => Members.find?_eq_of_perm hnodup hperm hname
  refine .object (hfind _ ?_) (hfind _ ?_ ▸ .refl _) (hfind _ ?_) <;> simp [treeNames]

/-- The order of members, and members of other names, make no difference to the tree that is read. -/
theorem Metadata.shape_of_perm {members others : Members} (hnodup : (members.map Prod.fst).Nodup)
    (hperm : (members.filter fun m => treeNames.contains m.1).Perm
      (others.filter fun m => treeNames.contains m.1)) :
    Metadata.shape (.object members) = Metadata.shape (.object others) :=
  (AlikeTree.of_perm hnodup hperm).shape_eq

/-! ## The shape of a tree -/

/-- Reading a value as a tree succeeds just if the value conforms, and yields the tree that the value
describes. Values that agree in what matters, at every level, are read alike. -/
theorem Metadata.shape_exact (v : Value) :
    ((Metadata.shape v).isOk = true ↔ IsTree v) ∧
    (∀ m, Metadata.shape v = .ok m ↔ DescribesTree v m) ∧
    ∀ w, AlikeTree v w → Metadata.shape w = Metadata.shape v := by
  refine ⟨?_, fun m => Metadata.shape_eq_ok, fun w h => h.shape_eq.symm⟩
  rw [isOk_iff, isTree_iff]
  simp only [Metadata.shape_eq_ok]

/-- A tree of one page. -/
def plainTree : Value :=
  .object [(text "spaceKey", .str (text "S")), (text "pages", .array [.object
    [(text "title", .str (text "A")), (text "contentFilePath", .str (text "a"))]])]

/-- The same tree in another order, with other members in between. -/
def reorderedTree : Value :=
  .object [(text "note", .null), (text "pages", .array [.object
    [(text "contentFilePath", .str (text "a")), (text "author", .int 1),
      (text "title", .str (text "A"))]]), (text "spaceKey", .str (text "S"))]

/-- The tree with its members in another order, and others between them, is read as the plain tree. -/
theorem shape_of_reordered_tree :
    AlikeTree plainTree reorderedTree ∧
      Metadata.shape reorderedTree = .ok ⟨text "S", [⟨text "A", text "a", [], []⟩], none⟩ := by
  have hpage : AlikePage
      (.object [(text "title", .str (text "A")), (text "contentFilePath", .str (text "a"))])
      (.object [(text "contentFilePath", .str (text "a")), (text "author", .int 1),
        (text "title", .str (text "A"))]) :=
    .of_perm (by decide) (.swap _ _ _)
  have htree : AlikeTree plainTree reorderedTree :=
    .object rfl (.array (.cons hpage .nil)) rfl
  refine ⟨htree, ?_⟩
  rw [(Metadata.shape_exact plainTree).2.2 reorderedTree htree]
  rfl

end PageTree
