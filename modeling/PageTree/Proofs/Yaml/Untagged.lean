import PageTree.Proofs.Yaml.Scanner
import PageTree.Yaml.Document

/-!
# Documents without tags

The nodes of a document that has no tags get their tags from their form. `Node.IsUntagged` says so of a node
and of all nodes in it, and `Document.ofText_untagged` that a tame text has no other nodes.
-/

set_option autoImplicit false

namespace PageTree.Yaml

/-- A node that has its tag from its form, and so have the nodes in it. No plain scalar has too many
colons. -/
inductive Node.IsUntagged : Node → Prop
  | plain {content : Text} (h : content.count (CodePoint.ofChar ':') < Number.mostSixtieths) :
    IsUntagged (.scalar (Tag.ofPlain content) content)
  | quoted (content : Text) : IsUntagged (.scalar .text content)
  | sequence {anchor : Option Text} {items : List Node} (h : ∀ n ∈ items, n.IsUntagged) :
    IsUntagged (.sequence anchor .seq items)
  | mapping {anchor : Option Text} {entries : List (Node × Node)}
    (hkeys : ∀ e ∈ entries, e.1.IsUntagged) (hvalues : ∀ e ∈ entries, e.2.IsUntagged) :
    IsUntagged (.mapping anchor .map entries)
  | enclosing (name : Text) : IsUntagged (.enclosing name)

/-- Both nodes of an entry have their tags from their form. -/
def Node.IsUntaggedEntry (e : Node × Node) : Prop := e.1.IsUntagged ∧ e.2.IsUntagged

/-- The node of nothing has its tag from its form. -/
theorem Node.isUntagged_empty : Node.empty.IsUntagged := by
  have htag : Tag.ofPlain [] = .null := by decide
  have hplain : (Node.scalar (Tag.ofPlain []) []).IsUntagged := .plain (by decide)
  rw [htag] at hplain
  exact hplain

namespace Document

/-- What is left of a document without tags. -/
structure Rest.IsUntagged (r : Rest) : Prop where
  tokens : ∀ t ∈ r.tokens, t.IsTame
  anchors : ∀ a ∈ r.anchors, a.2.IsUntagged

/-- What is left without its first token has no tags, either. -/
theorem Rest.IsUntagged.tail {r : Rest} {t : Token} {tokens : List Token} (h : r.IsUntagged)
    (htokens : r.tokens = t :: tokens) : Rest.IsUntagged ⟨tokens, r.anchors⟩ where
  tokens := fun u hu => h.tokens u (htokens ▸ List.mem_cons_of_mem t hu)
  anchors := h.anchors

/-- A part of a document that is read has no tags if what is left of the document has none. -/
def Reads {α : Type} (good : α → Prop) (x : Except Refusal (α × Rest)) : Prop :=
  Ensures (fun found => good found.1 ∧ found.2.IsUntagged) (fun _ => True) x

variable {handles : Handles} {place : Place} {r : Rest}

/-- The properties before a node bring no tag. -/
theorem properties_untagged (handles : Handles) {tokens : List Token} (h : ∀ t ∈ tokens, t.IsTame) :
    Ensures (fun p => p.tag = none ∧ ∀ t ∈ p.tokens, t.IsTame) (fun _ => True)
      (properties handles tokens) := by
  have htag (handle : Option Text) (suffix : Text) : .tag handle suffix ∉ tokens := fun hmem => h _ hmem
  unfold properties
  split
  · next name handle suffix rest => exact (htag handle suffix (by simp)).elim
  · next name rest _ =>
      split
      · exact trivial
      · exact ⟨rfl, fun t ht => h t (List.mem_cons_of_mem _ ht)⟩
  · next handle suffix name rest => exact (htag handle suffix (by simp)).elim
  · next handle suffix rest _ => exact (htag handle suffix (by simp)).elim
  · exact ⟨rfl, h⟩

/-- Remembering a node under its anchor brings no tags. -/
theorem anchored_untagged (anchor : Option Text) {n : Node} (hn : n.IsUntagged) {anchors : Anchors}
    (h : ∀ a ∈ anchors, a.2.IsUntagged) : ∀ a ∈ Node.anchored anchor n anchors, a.2.IsUntagged := by
  cases anchor with
  | none => exact h
  | some name => exact List.forall_mem_cons.mpr ⟨hn, h⟩

/-- What is left after remembering a node has no tags. -/
theorem register_untagged (anchor : Option Text) {n : Node} (hn : n.IsUntagged) {r : Rest}
    (h : r.IsUntagged) : (register anchor n r).IsUntagged where
  tokens := h.tokens
  anchors := anchored_untagged anchor hn h.anchors

/-- Announcing an anchor brings no tags. -/
theorem announce_untagged (anchor : Option Text) {anchors : Anchors}
    (h : ∀ a ∈ anchors, a.2.IsUntagged) : ∀ a ∈ announce anchor anchors, a.2.IsUntagged := by
  cases anchor with
  | none => exact h
  | some name => exact List.forall_mem_cons.mpr ⟨.enclosing name, h⟩

/-- What the eight readers of parts of a document do with so much fuel. -/
structure Readers (fuel : Nat) : Prop where
  node : ∀ handles place r, r.IsUntagged → Reads Node.IsUntagged (node fuel handles place r)
  content : ∀ handles place p anchors, p.tag = none → (∀ t ∈ p.tokens, t.IsTame) →
    (∀ a ∈ anchors, a.2.IsUntagged) → Reads Node.IsUntagged (content fuel handles place p anchors)
  part : ∀ handles place ends r, r.IsUntagged → Reads Node.IsUntagged (part fuel handles place ends r)
  valuePart : ∀ handles place ends r, r.IsUntagged →
    Reads Node.IsUntagged (valuePart fuel handles place ends r)
  blockItems : ∀ handles r, r.IsUntagged →
    Reads (fun items => ∀ n ∈ items, n.IsUntagged) (blockItems fuel handles r)
  plainItems : ∀ handles r, r.IsUntagged →
    Reads (fun items => ∀ n ∈ items, n.IsUntagged) (plainItems fuel handles r)
  blockEntries : ∀ handles r, r.IsUntagged →
    Reads (fun entries => ∀ e ∈ entries, Node.IsUntaggedEntry e) (blockEntries fuel handles r)
  flowItems : ∀ handles first r, r.IsUntagged →
    Reads (fun items => ∀ n ∈ items, n.IsUntagged) (flowItems fuel handles first r)
  flowEntries : ∀ handles first r, r.IsUntagged →
    Reads (fun entries => ∀ e ∈ entries, Node.IsUntaggedEntry e)
      (flowEntries fuel handles first r)

/-- Without fuel, the readers read nothing. -/
theorem readers_zero : Readers 0 := by
  constructor <;> intros <;> trivial

variable {fuel : Nat}

/-- A node is read without tags, with one more step of fuel. -/
theorem node_succ (h : Readers fuel) (hr : r.IsUntagged) :
    Reads Node.IsUntagged (node (fuel + 1) handles place r) := by
  have hproperties := properties_untagged handles hr.tokens
  unfold node
  split
  · next name tokens htokens =>
      split
      · next n hfind =>
          exact ⟨hr.anchors _ (List.mem_of_find?_eq_some hfind), hr.tail htokens⟩
      · exact trivial
  · cases hresult : properties handles r.tokens with
    | error e => exact trivial
    | ok p =>
        rw [hresult] at hproperties
        dsimp only
        split_ifs
        · exact trivial
        · exact trivial
        · exact h.content _ _ _ _ hproperties.1 hproperties.2 hr.anchors

/-- The content of a node is read without tags, with one more step of fuel. -/
theorem content_succ (h : Readers fuel) {p : Properties} (htag : p.tag = none)
    (htokens : ∀ t ∈ p.tokens, t.IsTame) {anchors : Anchors} (hanchors : ∀ a ∈ anchors, a.2.IsUntagged) :
    Reads Node.IsUntagged (content (fuel + 1) handles place p anchors) := by
  -- Inside the node its anchor stands for the node itself, of which nothing is known yet but its name.
  have hinner := announce_untagged p.anchor hanchors
  unfold content
  rw [htag]
  extract_lets inner sequence mapping scalar
  have hsequence {items : Except Refusal (List Node × Rest)}
      (hitems : Reads (fun items => ∀ n ∈ items, n.IsUntagged) items) :
      Reads Node.IsUntagged (sequence items) := by
    refine hitems.map fun found hfound => ?_
    have hn : (Node.sequence p.anchor .seq found.1).IsUntagged := .sequence hfound.1
    exact ⟨hn, register_untagged p.anchor hn hfound.2⟩
  have hmapping {entries : Except Refusal (List (Node × Node) × Rest)}
      (hentries : Reads (fun entries => ∀ e ∈ entries, Node.IsUntaggedEntry e) entries) :
      Reads Node.IsUntagged (mapping entries) := by
    refine hentries.map fun found hfound => ?_
    have hn : (Node.mapping p.anchor .map found.1).IsUntagged :=
      .mapping (fun e he => (hfound.1 e he).1) fun e he => (hfound.1 e he).2
    exact ⟨hn, register_untagged p.anchor hn hfound.2⟩
  have hscalar {plain : Bool} {content : Text} {tokens : List Token}
      (hcontent : (Token.scalar content plain).IsTame) (hrest : ∀ t ∈ tokens, t.IsTame) :
      Reads Node.IsUntagged (.ok (scalar plain content tokens)) := by
    have hn : (Node.scalar (Tag.ofScalar none plain content) content).IsUntagged := by
      cases plain with
      | true => exact .plain hcontent
      | false => exact .quoted content
    exact ⟨hn, register_untagged p.anchor hn ⟨hrest, hanchors⟩⟩
  have hrest {t : Token} {tokens : List Token} (hsplit : p.tokens = t :: tokens) :
      Rest.IsUntagged ⟨tokens, inner⟩ :=
    ⟨fun u hu => htokens u (hsplit ▸ List.mem_cons_of_mem t hu), hinner⟩
  split
  · next content plain tokens hsplit =>
      exact hscalar (htokens _ (hsplit ▸ List.mem_cons_self)) (hrest hsplit).tokens
  · next tokens hsplit => exact hsequence (h.flowItems _ _ _ (hrest hsplit))
  · next tokens hsplit => exact hmapping (h.flowEntries _ _ _ (hrest hsplit))
  · next tokens hsplit => exact hsequence (h.plainItems _ _ ⟨hsplit ▸ htokens, hinner⟩)
  · next tokens hsplit => exact hsequence (h.blockItems _ _ (hrest hsplit))
  · next tokens hsplit => exact hsequence (h.blockItems _ _ (hrest hsplit))
  · next tokens hsplit => exact hmapping (h.blockEntries _ _ (hrest hsplit))
  · next tokens hsplit => exact hmapping (h.blockEntries _ _ (hrest hsplit))
  · split
    · have hempty : (Token.scalar [] true).IsTame := Nat.zero_lt_succ _
      exact hscalar hempty htokens
    · exact trivial

/-- A part that may be missing is read without tags, with one more step of fuel. -/
theorem part_succ (h : Readers fuel) (ends : Token → Bool) (hr : r.IsUntagged) :
    Reads Node.IsUntagged (part (fuel + 1) handles place ends r) := by
  unfold part
  split
  · exact trivial
  · split
    · exact ⟨Node.isUntagged_empty, hr⟩
    · exact h.node _ _ _ hr

/-- A value that may be missing is read without tags, with one more step of fuel. -/
theorem valuePart_succ (h : Readers fuel) (ends : Token → Bool) (hr : r.IsUntagged) :
    Reads Node.IsUntagged (valuePart (fuel + 1) handles place ends r) := by
  unfold valuePart
  split
  · exact trivial
  · next tokens htokens => exact h.part _ _ _ _ (hr.tail htokens)
  · exact ⟨Node.isUntagged_empty, hr⟩

/-- Items are read one after the other. -/
theorem reads_cons {α : Type} {good : α → Prop} {first : Except Refusal (α × Rest)}
    {others : Rest → Except Refusal (List α × Rest)} (hfirst : Reads good first)
    (hothers : ∀ r, r.IsUntagged → Reads (fun items => ∀ a ∈ items, good a) (others r)) :
    Reads (fun items => ∀ a ∈ items, good a) (do
      let (a, r) ← first
      let (more, r) ← others r
      return (a :: more, r)) := by
  refine Ensures.bind hfirst fun found hfound => ?_
  refine Ensures.bind (hothers found.2 hfound.2) fun more hmore => ?_
  exact ⟨List.forall_mem_cons.mpr ⟨hfound.1, hmore.1⟩, hmore.2⟩

/-- So are entries, of which each has a key and a value. -/
theorem reads_entry {entry : Type} {good : entry → Prop} {key : Except Refusal (Node × Rest)}
    {value : Rest → Except Refusal (Node × Rest)} {make : Node → Node → entry}
    {others : Rest → Except Refusal (List entry × Rest)} (hkey : Reads Node.IsUntagged key)
    (hvalue : ∀ r, r.IsUntagged → Reads Node.IsUntagged (value r))
    (hmake : ∀ k v, k.IsUntagged → v.IsUntagged → good (make k v))
    (hothers : ∀ r, r.IsUntagged → Reads (fun entries => ∀ e ∈ entries, good e) (others r)) :
    Reads (fun entries => ∀ e ∈ entries, good e) (do
      let (k, r) ← key
      let (v, r) ← value r
      let (more, r) ← others r
      return (make k v :: more, r)) := by
  refine Ensures.bind hkey fun k hk => ?_
  refine Ensures.bind (hvalue k.2 hk.2) fun v hv => ?_
  refine Ensures.bind (hothers v.2 hv.2) fun more hmore => ?_
  exact ⟨List.forall_mem_cons.mpr ⟨hmake k.1 v.1 hk.1 hv.1, hmore.1⟩, hmore.2⟩

/-- The items of a block are read without tags, with one more step of fuel. -/
theorem blockItems_succ (h : Readers fuel) (hr : r.IsUntagged) :
    Reads (fun items => ∀ n ∈ items, n.IsUntagged) (blockItems (fuel + 1) handles r) := by
  unfold blockItems
  split
  · exact trivial
  · next tokens htokens =>
      exact reads_cons (h.part _ _ _ _ (hr.tail htokens)) fun r hr => h.blockItems _ _ hr
  · next tokens htokens => exact ⟨by simp, hr.tail htokens⟩
  · exact trivial

/-- Items without indentation are read without tags, with one more step of fuel. -/
theorem plainItems_succ (h : Readers fuel) (hr : r.IsUntagged) :
    Reads (fun items => ∀ n ∈ items, n.IsUntagged) (plainItems (fuel + 1) handles r) := by
  unfold plainItems
  split
  · exact trivial
  · next tokens htokens =>
      exact reads_cons (h.part _ _ _ _ (hr.tail htokens)) fun r hr => h.plainItems _ _ hr
  · exact ⟨by simp, hr⟩

/-- The entries of a block are read without tags, with one more step of fuel. -/
theorem blockEntries_succ (h : Readers fuel) (hr : r.IsUntagged) :
    Reads (fun entries => ∀ e ∈ entries, Node.IsUntaggedEntry e) (blockEntries (fuel + 1) handles r) := by
  unfold blockEntries
  split
  · exact trivial
  · next tokens htokens =>
      exact reads_entry (h.part _ _ _ _ (hr.tail htokens)) (fun r hr => h.valuePart _ _ _ _ hr)
        (fun _ _ hk hv => ⟨hk, hv⟩) fun r hr => h.blockEntries _ _ hr
  · next tokens htokens => exact ⟨by simp, hr.tail htokens⟩
  · exact trivial

/-- Tame tokens are left behind the comma before an entry. -/
theorem afterComma_untagged (first : Bool) {tokens : List Token} (h : ∀ t ∈ tokens, t.IsTame) :
    Ensures (fun rest => ∀ t ∈ rest, t.IsTame) (fun _ => True) (afterComma first tokens) := by
  unfold afterComma
  split
  · exact h
  · split
    · exact trivial
    · split
      · exact trivial
      · exact fun t ht => h t (List.mem_cons_of_mem _ ht)
    · exact trivial

/-- The items of a sequence in flow style are read without tags, with one more step of fuel. -/
theorem flowItems_succ (h : Readers fuel) (first : Bool) (hr : r.IsUntagged) :
    Reads (fun items => ∀ n ∈ items, n.IsUntagged) (flowItems (fuel + 1) handles first r) := by
  unfold flowItems
  split
  · exact trivial
  · next tokens htokens => exact ⟨by simp, hr.tail htokens⟩
  · refine (afterComma_untagged first hr.tokens).bind fun tokens htokens => ?_
    have hleft : Rest.IsUntagged ⟨tokens, r.anchors⟩ := ⟨htokens, hr.anchors⟩
    split
    · exact ⟨by simp, hleft.tail rfl⟩
    · have hpair (k v : Node) (hk : k.IsUntagged) (hv : v.IsUntagged) :
          (Node.mapping none .map [(k, v)]).IsUntagged :=
        .mapping (List.forall_mem_singleton.mpr hk) (List.forall_mem_singleton.mpr hv)
      exact reads_entry (h.part _ _ _ _ (hleft.tail rfl)) (fun r hr => h.valuePart _ _ _ _ hr) hpair
        fun r hr => h.flowItems _ _ _ hr
    · exact reads_cons (h.node _ _ _ hleft) fun r hr => h.flowItems _ _ _ hr

/-- The entries of a mapping in flow style are read without tags, with one more step of fuel. -/
theorem flowEntries_succ (h : Readers fuel) (first : Bool) (hr : r.IsUntagged) :
    Reads (fun entries => ∀ e ∈ entries, Node.IsUntaggedEntry e)
      (flowEntries (fuel + 1) handles first r) := by
  unfold flowEntries
  split
  · exact trivial
  · next tokens htokens => exact ⟨by simp, hr.tail htokens⟩
  · refine (afterComma_untagged first hr.tokens).bind fun tokens htokens => ?_
    have hleft : Rest.IsUntagged ⟨tokens, r.anchors⟩ := ⟨htokens, hr.anchors⟩
    split
    · exact ⟨by simp, hleft.tail rfl⟩
    · exact reads_entry (h.part _ _ _ _ (hleft.tail rfl)) (fun r hr => h.valuePart _ _ _ _ hr)
        (fun _ _ hk hv => ⟨hk, hv⟩) fun r hr => h.flowEntries _ _ _ hr
    · refine Ensures.bind (h.node _ _ _ hleft) fun k hk => ?_
      refine Ensures.bind (h.flowEntries _ _ _ hk.2) fun more hmore => ?_
      exact ⟨List.forall_mem_cons.mpr ⟨⟨hk.1, Node.isUntagged_empty⟩, hmore.1⟩, hmore.2⟩

/-- With any fuel, the readers read nothing that has tags. -/
theorem readers (fuel : Nat) : Readers fuel := by
  -- Every reader calls others with less fuel, so all of them go into one induction.
  induction fuel with
  | zero => exact readers_zero
  | succ fuel ih =>
      exact
        { node := fun _ _ _ hr => node_succ ih hr
          content := fun _ _ _ _ htag htokens hanchors => content_succ ih htag htokens hanchors
          part := fun _ _ ends _ hr => part_succ ih ends hr
          valuePart := fun _ _ ends _ hr => valuePart_succ ih ends hr
          blockItems := fun _ _ hr => blockItems_succ ih hr
          plainItems := fun _ _ hr => plainItems_succ ih hr
          blockEntries := fun _ _ hr => blockEntries_succ ih hr
          flowItems := fun _ first _ hr => flowItems_succ ih first hr
          flowEntries := fun _ first _ hr => flowEntries_succ ih first hr }

/-! ## The whole -/

/-- That nothing is left is checked without further promises. -/
theorem nothingLeft_ensures (tokens : List Token) :
    Ensures (fun _ => True) (fun _ => True) (nothingLeft tokens) := by
  cases nothingLeft tokens <;> exact trivial

/-- The root of a document is read without tags. -/
theorem rooted_untagged (handles : Handles) {tokens : List Token} (h : ∀ t ∈ tokens, t.IsTame) :
    Ensures Node.IsUntagged (fun _ => True) (rooted handles tokens) := by
  have hroot : Rest.IsUntagged ⟨tokens, []⟩ := ⟨h, by simp⟩
  unfold rooted
  refine Ensures.bind ((readers _).node handles .block _ hroot) ?_
  rintro ⟨n, r⟩ ⟨hn, -⟩
  exact Ensures.bind (nothingLeft_ensures r.tokens) fun _ _ => hn

/-- The directives before a document leave tame tokens. -/
theorem directives_untagged (seenVersion : Bool) (defined : Handles) {tokens : List Token}
    (h : ∀ t ∈ tokens, t.IsTame) :
    Ensures (fun r => ∀ t ∈ r.2, t.IsTame) (fun _ => True) (directives seenVersion defined tokens) := by
  induction tokens generalizing seenVersion defined with
  | nil => exact h
  | cons t rest ih =>
      have hrest := (List.forall_mem_cons.mp h).2
      unfold directives
      split
      · next major rest' heq =>
          obtain ⟨-, rfl⟩ := List.cons.inj heq
          split
          · exact trivial
          · exact ih true defined hrest
      · next name expansion rest' heq =>
          obtain ⟨-, rfl⟩ := List.cons.inj heq
          split
          · exact trivial
          · exact ih seenVersion _ hrest
      · next rest' heq =>
          obtain ⟨-, rfl⟩ := List.cons.inj heq
          exact ih seenVersion defined hrest
      · exact h

/-- A document behind its marks is read without tags. -/
theorem marked_untagged {tokens : List Token} (h : ∀ t ∈ tokens, t.IsTame) :
    Ensures Node.IsUntagged (fun _ => True) (marked tokens) := by
  unfold marked
  refine (directives_untagged false [] h).bind ?_
  rintro ⟨handles, tokens⟩ htokens
  dsimp only at htokens ⊢
  split
  · exact trivial
  · split
    · exact trivial
    · next t rest =>
        have hrest := (List.forall_mem_cons.mp htokens).2
        split
        · exact Ensures.bind (nothingLeft_ensures _) fun _ _ => Node.isUntagged_empty
        · exact rooted_untagged handles hrest
  · exact trivial

/-- A document of tame tokens has no tags. -/
theorem ofTokens_untagged {tokens : List Token} (h : ∀ t ∈ tokens, t.IsTame) :
    Ensures (fun found => ∀ n, found = some n → n.IsUntagged) (fun _ => True) (ofTokens tokens) := by
  have hsome {n : Node} (hn : n.IsUntagged) : ∀ m, some n = some m → m.IsUntagged := by
    rintro _ ⟨⟩
    exact hn
  unfold ofTokens
  split
  · exact trivial
  · rintro n ⟨⟩
  · exact (marked_untagged h).map fun n hn => hsome hn
  · exact (marked_untagged h).map fun n hn => hsome hn
  · exact (rooted_untagged standardHandles h).map fun n hn => hsome hn

end Document

/-! ## Aliases -/

namespace Node

mutual

/-- Putting nodes without tags in the place of aliases brings no tags into a node. -/
theorem isUntagged_unfoldIn {anchors : Anchors} (hanchors : ∀ a ∈ anchors, a.2.IsUntagged) :
    (n : Node) → n.IsUntagged → (unfoldIn anchors n).IsUntagged
  | .scalar tag content, hn => hn
  | .sequence anchor tag items, hn => by
      have hinner := Document.anchored_untagged anchor hn hanchors
      rw [unfoldIn]
      cases hn with
      | sequence h => exact .sequence (isUntagged_unfoldItems hinner items h)
  | .mapping anchor tag entries, hn => by
      have hinner := Document.anchored_untagged anchor hn hanchors
      rw [unfoldIn]
      cases hn with
      | mapping hkeys hvalues =>
          have hentries := isUntagged_unfoldEntries hinner entries fun e he => ⟨hkeys e he, hvalues e he⟩
          exact .mapping (fun e he => (hentries e he).1) fun e he => (hentries e he).2
  | .enclosing name, hn => by
      rw [unfoldIn]
      cases hfind : anchors.find? (·.1 == name) with
      | none => exact .enclosing name
      | some a => exact hanchors a (List.mem_of_find?_eq_some hfind)

/-- Putting nodes without tags in the place of aliases brings no tags into items. -/
theorem isUntagged_unfoldItems {anchors : Anchors} (hanchors : ∀ a ∈ anchors, a.2.IsUntagged) :
    (items : List Node) → (∀ n ∈ items, n.IsUntagged) → ∀ n ∈ unfoldItems anchors items, n.IsUntagged
  | [], _ => by simp [unfoldItems]
  | n :: rest, h => by
      obtain ⟨hn, hrest⟩ := List.forall_mem_cons.mp h
      rw [unfoldItems]
      exact List.forall_mem_cons.mpr
        ⟨isUntagged_unfoldIn hanchors n hn, isUntagged_unfoldItems hanchors rest hrest⟩

/-- Putting nodes without tags in the place of aliases brings no tags into entries. -/
theorem isUntagged_unfoldEntries {anchors : Anchors} (hanchors : ∀ a ∈ anchors, a.2.IsUntagged) :
    (entries : List (Node × Node)) → (∀ e ∈ entries, IsUntaggedEntry e) →
      ∀ e ∈ unfoldEntries anchors entries, IsUntaggedEntry e
  | [], _ => by simp [unfoldEntries]
  | (k, v) :: rest, h => by
      obtain ⟨⟨hk, hv⟩, hrest⟩ := List.forall_mem_cons.mp h
      rw [unfoldEntries]
      exact List.forall_mem_cons.mpr
        ⟨⟨isUntagged_unfoldIn hanchors k hk, isUntagged_unfoldIn hanchors v hv⟩,
          isUntagged_unfoldEntries hanchors rest hrest⟩

end

/-- A node without tags has none when its aliases have been replaced. -/
theorem isUntagged_unfold {n : Node} (hn : n.IsUntagged) : n.unfold.IsUntagged := by
  -- Aliases of enclosing nodes are unfolded twice, and no anchor is known from outside.
  have hnone : ∀ a ∈ ([] : Anchors), a.2.IsUntagged := by simp
  unfold unfold
  split
  · exact isUntagged_unfoldIn hnone _ (isUntagged_unfoldIn hnone n hn)
  · exact hn

end Node

/-- A tame text has no nodes with tags of their own, and no faults that are not foreseen in its form. -/
theorem Document.ofText_untagged {s : Text} (h : IsTame s) :
    Yields (fun found => ∀ n, found = some n → n.IsUntagged) (ofText s) := by
  have hstream := TokenStream.ofText_isTame h
  have hnodes := ofTokens_untagged hstream.tokens
  unfold ofText
  dsimp only
  split
  · rfl
  · split
    · next found hfound =>
        rw [hfound] at hnodes
        intro n hn
        obtain ⟨m, hm, rfl⟩ := Option.map_eq_some_iff.mp hn
        exact Node.isUntagged_unfold (hnodes m hm)
    · rfl
    · cases hfault : (TokenStream.ofText s).fault with
      | none => rfl
      | some fault => exact hstream.fault fault hfault

end PageTree.Yaml
