import PageTree.Proofs.Value
import PageTree.Proofs.Yaml.FlowTokens
import PageTree.Yaml.Reader

/-!
# The value of a JSON text

The tokens of a value in flow style are those of a document with one node (`Document.ofText_write`), in which
there are no plain scalars, no anchors and no tags. So each scalar is a text whatever stands in it, and the
node has the value that was written (`Yaml.read_write`).
-/

set_option autoImplicit false

namespace PageTree

namespace Value

open Yaml (Node)

mutual

/-- The node of a value in flow style. -/
def node : Value → Node
  | .str s => .scalar .text s
  | .array items => .sequence none .seq (itemNodes items)
  | .object members => .mapping none .map (entryNodes members)
  | _ => .empty

/-- The nodes of items. -/
def itemNodes : List Value → List Node
  | [] => []
  | v :: rest => v.node :: itemNodes rest

/-- The nodes of members, with those of their keys. -/
def entryNodes : List (Text × Value) → List (Node × Node)
  | [] => []
  | (key, v) :: rest => (.scalar .text key, v.node) :: entryNodes rest

end

end Value

namespace Yaml.Document

/-! ## From tokens to nodes -/

/-- The tokens that values start with. -/
inductive StartsValue : Token → Prop
  | scalar (s : Text) : StartsValue (.scalar s false)
  | sequence : StartsValue .flowSequenceStart
  | mapping : StartsValue .flowMappingStart

/-- The tokens of a value that is made of texts begin with one that a value starts with. -/
theorem exists_tokens_eq_cons {v : Value} (hv : v.IsTextual) :
    ∃ t more, v.tokens = t :: more ∧ StartsValue t := by
  cases v with
  | str s => exact ⟨_, _, rfl, .scalar s⟩
  | array items => exact ⟨_, _, rfl, .sequence⟩
  | object members => exact ⟨_, _, rfl, .mapping⟩
  | _ => exact hv.elim

variable {handles : Handles} {place : Place} {fuel : Nat} {t : Token} {more : List Token}

/-- Before a value there is neither an anchor nor a tag. -/
theorem node_of_startsValue (ht : StartsValue t) :
    node (fuel + 1) handles place ⟨t :: more, []⟩ =
      content fuel handles place ⟨none, none, t :: more⟩ [] := by
  cases ht with
  | scalar s => simp [node, properties]
  | sequence => simp [node, properties]
  | mapping => simp [node, properties]

/-- The comma before an entry, which the first one has not. -/
def comma (first : Bool) : List Token := if first then [] else [.flowEntry]

/-- Where a value starts, an item is read and then the items behind it. -/
theorem flowItems_of_startsValue (ht : StartsValue t) (first : Bool) :
    flowItems (fuel + 1) handles first ⟨comma first ++ t :: more, []⟩ =
      (do
        let (n, r) ← node fuel handles .flow ⟨t :: more, []⟩
        let (more, r) ← flowItems fuel handles false r
        return (n :: more, r)) := by
  cases first <;> cases ht <;> rfl

/-- A quoted scalar is read as its text. -/
theorem node_scalar (s : Text) :
    node (fuel + 2) handles place ⟨.scalar s false :: more, []⟩ = .ok (.scalar .text s, ⟨more, []⟩) :=
  node_of_startsValue (.scalar s)

/-- A sequence is read if its items are. -/
theorem node_sequence {nodes : List Node} {rest : List Token}
    (h : flowItems fuel handles true ⟨more, []⟩ = .ok (nodes, ⟨rest, []⟩)) :
    node (fuel + 2) handles place ⟨.flowSequenceStart :: more, []⟩ =
      .ok (.sequence none .seq nodes, ⟨rest, []⟩) := by
  rw [node_of_startsValue .sequence]
  simp only [content, announce, h]
  rfl

/-- A mapping is read if its entries are. -/
theorem node_mapping {nodes : List (Node × Node)} {rest : List Token}
    (h : flowEntries fuel handles true ⟨more, []⟩ = .ok (nodes, ⟨rest, []⟩)) :
    node (fuel + 2) handles place ⟨.flowMappingStart :: more, []⟩ =
      .ok (.mapping none .map nodes, ⟨rest, []⟩) := by
  rw [node_of_startsValue .mapping]
  simp only [content, announce, h]
  rfl

/-- A member is a key, marked as one, and a value. -/
theorem flowEntries_of_startsValue (ht : StartsValue t) (first : Bool) (key : Text) :
    flowEntries (fuel + 4) handles first
        ⟨comma first ++ .key :: .scalar key false :: .value :: t :: more, []⟩ =
      (do
        let (n, r) ← node (fuel + 1) handles .flow ⟨t :: more, []⟩
        let (more, r) ← flowEntries (fuel + 3) handles false r
        return ((.scalar .text key, n) :: more, r)) := by
  have hkey : part (fuel + 3) handles .flow (fun t => isValue t || endsMappingPart t)
      ⟨.scalar key false :: .value :: t :: more, []⟩ =
        .ok (.scalar .text key, ⟨.value :: t :: more, []⟩) := rfl
  have hvalue : valuePart (fuel + 3) handles .flow endsMappingPart ⟨.value :: t :: more, []⟩ =
      node (fuel + 1) handles .flow ⟨t :: more, []⟩ := by
    cases ht <;> rfl
  cases first
  all_goals
    show (do
      let (k, r) ← part (fuel + 3) handles .flow (fun t => isValue t || endsMappingPart t)
        ⟨.scalar key false :: .value :: t :: more, []⟩
      let (v, r) ← valuePart (fuel + 3) handles .flow endsMappingPart r
      let (more, r) ← flowEntries (fuel + 3) handles false r
      return ((k, v) :: more, r)) = _
    rw [hkey]
    show (do
      let (v, r) ← valuePart (fuel + 3) handles .flow endsMappingPart ⟨.value :: t :: more, []⟩
      let (more, r) ← flowEntries (fuel + 3) handles false r
      return ((Node.scalar .text key, v) :: more, r)) = _
    rw [hvalue]

/-- The tokens of a value are read as its node, whatever follows them. -/
def ReadsBack (v : Value) : Prop :=
  ∀ (fuel : Nat) (handles : Handles) (place : Place) (rest : List Token), 2 * v.tokens.length ≤ fuel →
    node fuel handles place ⟨v.tokens ++ rest, []⟩ = .ok (v.node, ⟨rest, []⟩)

/-- An entry of a sequence is read before the ones after it. -/
theorem flowItems_cons {v : Value} (hv : v.IsTextual) (hreads : ReadsBack v) (first : Bool)
    {nodes : List Node} {rest : List Token}
    (hfuel : 2 * v.tokens.length ≤ fuel)
    (hmore : flowItems fuel handles false ⟨more, []⟩ = .ok (nodes, ⟨rest, []⟩)) :
    flowItems (fuel + 1) handles first ⟨comma first ++ (v.tokens ++ more), []⟩ =
      .ok (v.node :: nodes, ⟨rest, []⟩) := by
  have hnode := hreads fuel handles .flow more hfuel
  obtain ⟨t, ts, htokens, ht⟩ := exists_tokens_eq_cons hv
  rw [htokens, List.cons_append] at hnode ⊢
  rw [flowItems_of_startsValue ht, hnode]
  show (flowItems fuel handles false ⟨more, []⟩ >>= fun found => _) = _
  rw [hmore]
  rfl

/-- A member of a mapping is read before the ones after it. -/
theorem flowEntries_cons {v : Value} (hv : v.IsTextual) (hreads : ReadsBack v) (first : Bool) (key : Text)
    {nodes : List (Node × Node)} {rest : List Token}
    (hfuel : 2 * v.tokens.length ≤ fuel + 1)
    (hmore : flowEntries (fuel + 3) handles false ⟨more, []⟩ = .ok (nodes, ⟨rest, []⟩)) :
    flowEntries (fuel + 4) handles first
        ⟨comma first ++ .key :: .scalar key false :: .value :: (v.tokens ++ more), []⟩ =
      .ok ((.scalar .text key, v.node) :: nodes, ⟨rest, []⟩) := by
  have hnode := hreads (fuel + 1) handles .flow more hfuel
  obtain ⟨t, ts, htokens, ht⟩ := exists_tokens_eq_cons hv
  rw [htokens, List.cons_append] at hnode ⊢
  rw [flowEntries_of_startsValue ht, hnode]
  show (flowEntries (fuel + 3) handles false ⟨more, []⟩ >>= fun found => _) = _
  rw [hmore]
  rfl

mutual

/-- The tokens of every value that is made of texts are read as its node. -/
theorem readsBack : (v : Value) → v.IsTextual → ReadsBack v
  | .str s, _ => fun fuel handles place rest hfuel => by
      obtain ⟨fuel, rfl⟩ := Nat.exists_eq_add_of_le' hfuel
      exact node_scalar s
  | .array [], _ => fun fuel handles place rest hfuel => by
      obtain ⟨fuel, rfl⟩ := Nat.exists_eq_add_of_le' hfuel
      rfl
  | .array (v :: items), ⟨hv, hitems⟩ => fun fuel handles place rest hfuel => by
      simp only [Value.tokens, Value.itemTokens, List.tail_cons, List.length_cons, List.length_append] at hfuel
      obtain ⟨fuel, rfl⟩ := Nat.exists_eq_add_of_le' (show 3 ≤ fuel by omega)
      have hmore := readsBack_items items hitems fuel handles rest (by omega)
      have hread := flowItems_cons hv (readsBack v hv) true (by omega) hmore
      simp only [Value.tokens, Value.itemTokens, List.tail_cons, List.cons_append, List.append_assoc]
      exact node_sequence hread
  | .object [], _ => fun fuel handles place rest hfuel => by
      obtain ⟨fuel, rfl⟩ := Nat.exists_eq_add_of_le' hfuel
      rfl
  | .object ((key, v) :: members), ⟨_, hv, hmembers⟩ => fun fuel handles place rest hfuel => by
      simp only [Value.tokens, Value.memberTokens, List.tail_cons, List.length_cons, List.length_append] at hfuel
      obtain ⟨fuel, rfl⟩ := Nat.exists_eq_add_of_le' (show 6 ≤ fuel by omega)
      have hmore := readsBack_members members hmembers (fuel + 3) handles rest (by omega)
      have hread := flowEntries_cons hv (readsBack v hv) true key (by omega) hmore
      simp only [Value.tokens, Value.memberTokens, List.tail_cons, List.cons_append, List.append_assoc]
      exact node_mapping hread

/-- Items are read with the commas before them, up to the bracket. -/
theorem readsBack_items : (items : List Value) → Value.AllTextual items →
    ∀ (fuel : Nat) (handles : Handles) (rest : List Token),
    2 * (Value.itemTokens items).length + 1 ≤ fuel →
      flowItems fuel handles false ⟨Value.itemTokens items ++ .flowSequenceEnd :: rest, []⟩ =
        .ok (Value.itemNodes items, ⟨rest, []⟩)
  | [], _, fuel, handles, rest, hfuel => by
      obtain ⟨fuel, rfl⟩ := Nat.exists_eq_add_of_le' hfuel
      rfl
  | v :: items, ⟨hv, hitems⟩, fuel, handles, rest, hfuel => by
      simp only [Value.itemTokens, List.length_cons, List.length_append] at hfuel
      obtain ⟨fuel, rfl⟩ := Nat.exists_eq_add_of_le' (show 1 ≤ fuel by omega)
      have hmore := readsBack_items items hitems fuel handles rest (by omega)
      have hread := flowItems_cons hv (readsBack v hv) false (by omega) hmore
      simp only [Value.itemTokens, List.cons_append, List.append_assoc]
      exact hread

/-- So are members. -/
theorem readsBack_members : (members : List (Text × Value)) → Value.MembersTextual members →
    ∀ (fuel : Nat) (handles : Handles) (rest : List Token),
    2 * (Value.memberTokens members).length + 1 ≤ fuel →
      flowEntries fuel handles false ⟨Value.memberTokens members ++ .flowMappingEnd :: rest, []⟩ =
        .ok (Value.entryNodes members, ⟨rest, []⟩)
  | [], _, fuel, handles, rest, hfuel => by
      obtain ⟨fuel, rfl⟩ := Nat.exists_eq_add_of_le' hfuel
      rfl
  | (key, v) :: members, ⟨_, hv, hmembers⟩, fuel, handles, rest, hfuel => by
      simp only [Value.memberTokens, List.length_cons, List.length_append] at hfuel
      obtain ⟨fuel, rfl⟩ := Nat.exists_eq_add_of_le' (show 4 ≤ fuel by omega)
      have hmore := readsBack_members members hmembers (fuel + 3) handles rest (by omega)
      have hread := flowEntries_cons hv (readsBack v hv) false key (by omega) hmore
      simp only [Value.memberTokens, List.cons_append, List.append_assoc]
      exact hread

end

/-- The tokens of a value are a document with one node. -/
theorem ofTokens_tokens {v : Value} (hv : v.IsTextual) :
    ofTokens (v.tokens ++ [.streamEnd]) = .ok (some v.node) := by
  have hrooted : rooted standardHandles (v.tokens ++ [.streamEnd]) = .ok v.node := by
    unfold rooted
    rw [readsBack v hv _ _ _ _ (by rw [List.length_append]; omega)]
    rfl
  obtain ⟨t, ts, htokens, ht⟩ := exists_tokens_eq_cons hv
  rw [htokens, List.cons_append] at hrooted ⊢
  cases ht <;> exact congrArg (Except.map some) hrooted

end Yaml.Document

/-! ## From nodes to values -/

namespace Value

/-- Items are made of texts just if each of them is. -/
theorem allTextual_iff {items : List Value} : AllTextual items ↔ ∀ v ∈ items, v.IsTextual := by
  induction items with
  | nil => simp [AllTextual]
  | cons v rest ih => simp [AllTextual, ih]

/-- Members are made of texts just if each has a short key and a value that is. -/
theorem membersTextual_iff {members : List (Text × Value)} :
    MembersTextual members ↔ ∀ m ∈ members, Text.IsShortKey m.1 ∧ m.2.IsTextual := by
  induction members with
  | nil => simp [MembersTextual]
  | cons m rest ih => simp [MembersTextual, ih, and_assoc]

/-- The nodes of items are those of each. -/
theorem itemNodes_eq_map (items : List Value) : itemNodes items = items.map node := by
  induction items with
  | nil => rfl
  | cons v rest ih => rw [itemNodes, ih, List.map_cons]

/-- The nodes of members are those of each, with texts as keys. -/
theorem entryNodes_eq_map (members : List (Text × Value)) :
    entryNodes members = members.map fun m => (.scalar .text m.1, m.2.node) := by
  induction members with
  | nil => rfl
  | cons m rest ih => rw [entryNodes, ih, List.map_cons]

/-- The parts of a value that is made of texts are made of them, too. -/
theorem isTextual_of_mem_parts {v part : Value} (hv : v.IsTextual) (hpart : part ∈ v.parts) :
    part.IsTextual := by
  cases v with
  | array items => exact allTextual_iff.mp hv part hpart
  | object members =>
      obtain ⟨m, hm, rfl⟩ := List.mem_map.mp hpart
      exact (membersTextual_iff.mp hv m hm).2
  | _ => cases hpart

end Value

namespace Yaml.Node

mutual

/-- No node of a value encloses an alias to it. -/
theorem hasEnclosing_node : (v : Value) → v.node.hasEnclosing = false
  | .array items => itemsHaveEnclosing_itemNodes items
  | .object members => entriesHaveEnclosing_entryNodes members
  | .str _ => rfl
  | .null => rfl
  | .bool _ => rfl
  | .int _ => rfl
  | .float _ => rfl
  | .foreign _ => rfl

/-- No alias to an enclosing node remains in the nodes of items. -/
theorem itemsHaveEnclosing_itemNodes : (items : List Value) →
    itemsHaveEnclosing (Value.itemNodes items) = false
  | [] => rfl
  | v :: rest => by
      rw [Value.itemNodes, itemsHaveEnclosing, hasEnclosing_node v, itemsHaveEnclosing_itemNodes rest]
      rfl

/-- No alias to an enclosing node remains in the nodes of members. -/
theorem entriesHaveEnclosing_entryNodes : (members : List (Text × Value)) →
    entriesHaveEnclosing (Value.entryNodes members) = false
  | [] => rfl
  | (key, v) :: rest => by
      rw [Value.entryNodes, entriesHaveEnclosing, hasEnclosing_node v,
        entriesHaveEnclosing_entryNodes rest]
      rfl

end

/-- There is nothing to be merged among members. -/
theorem merged_entryNodes (members : List (Text × Value)) :
    merged (Value.entryNodes members) = .ok ([], Value.entryNodes members) := by
  induction members with
  | nil => rfl
  | cons m rest ih =>
      rw [Value.entryNodes, merged, if_neg (by simp [tag]), ih]
      rfl

/-- Members have nothing to merge. -/
theorem allEntries_entryNodes (members : List (Text × Value)) :
    allEntries (Value.entryNodes members) = .ok (Value.entryNodes members) := by
  rw [allEntries, merged_entryNodes]
  rfl

/-- The node of a value that is made of texts passes its check. -/
theorem check_node {v : Value} (hv : v.IsTextual) : check v.node = .ok () := by
  cases v with
  | str s => rfl
  | array items => rfl
  | object members => rfl
  | _ => exact hv.elim

/-- The nodes of items that are made of texts pass their check. -/
theorem checkAll_itemNodes {items : List Value} (h : ∀ v ∈ items, v.IsTextual) :
    checkAll (Value.itemNodes items) = .ok () := by
  induction items with
  | nil => rfl
  | cons v rest ih =>
      obtain ⟨hv, hrest⟩ := List.forall_mem_cons.mp h
      rw [Value.itemNodes, checkAll, check_node hv]
      exact ih hrest

/-- The nodes of members that are made of texts pass their check. -/
theorem checkEntries_entryNodes {members : List (Text × Value)} (h : ∀ m ∈ members, m.2.IsTextual) :
    checkEntries (Value.entryNodes members) = .ok () := by
  induction members with
  | nil => rfl
  | cons m rest ih =>
      obtain ⟨hv, hrest⟩ := List.forall_mem_cons.mp h
      have hentry : checkEntry (.scalar .text m.1, m.2.node) = .ok () := by
        show check m.2.node = _
        exact check_node hv
      rw [Value.entryNodes, checkEntries, hentry]
      exact ih hrest

/-- Opening a node shows the nodes right below it. -/
theorem opened_node {v : Value} (hv : v.IsTextual) : opened v.node = .ok (v.parts.map Value.node) := by
  cases v with
  | str s => rfl
  | array items =>
      show (checkAll (Value.itemNodes items)).map _ = _
      rw [checkAll_itemNodes (Value.allTextual_iff.mp hv), Value.itemNodes_eq_map]
      rfl
  | object members =>
      have hmembers := fun m hm => (Value.membersTextual_iff.mp hv m hm).2
      show (allEntries (Value.entryNodes members) >>= fun entries => _) = _
      rw [allEntries_entryNodes]
      show (checkEntries (Value.entryNodes members) >>= fun _ => _) = _
      rw [checkEntries_entryNodes hmembers, Value.entryNodes_eq_map]
      simp [Value.parts, bind, Except.bind, pure, Except.pure, Function.comp_def]
  | _ => exact hv.elim

/-- Opening the nodes of values leads to the nodes of their parts. -/
theorem openAll_map_node {vs : List Value} (h : ∀ v ∈ vs, v.IsTextual) :
    openAll (vs.map Value.node) = .ok ((vs.flatMap Value.parts).map Value.node) := by
  induction vs with
  | nil => rfl
  | cons v rest ih =>
      obtain ⟨hv, hrest⟩ := List.forall_mem_cons.mp h
      rw [List.map_cons, openAll, opened_node hv, ih hrest, List.flatMap_cons, List.map_append]
      rfl

/-- Nothing is wrong at any level. -/
theorem openLevels_map_node {vs : List Value} (h : ∀ v ∈ vs, v.IsTextual) (fuel : Nat) :
    openLevels fuel (vs.map Value.node) = .ok () := by
  induction fuel generalizing vs with
  | zero => rfl
  | succ fuel ih =>
      rw [openLevels]
      split
      · rfl
      · rw [openAll_map_node h]
        refine ih fun part hpart => ?_
        obtain ⟨v, hv, hpart⟩ := List.mem_flatMap.mp hpart
        exact Value.isTextual_of_mem_parts (h v hv) hpart

mutual

/-- A node stands for the value that it is the node of. -/
theorem valueWithin_node : (v : Value) → v.IsTextual → Json.Faithful v → ∀ {fuel : Nat},
    v.node.height ≤ fuel → valueWithin fuel v.node = v
  | .str s, _, _, fuel, hfuel => by
      obtain ⟨fuel, rfl⟩ := Nat.exists_eq_add_of_le' hfuel
      rfl
  | .array items, htextual, hfaithful, fuel, hfuel => by
      obtain ⟨fuel, rfl⟩ := Nat.exists_eq_add_of_le' (Nat.le_of_add_left_le hfuel)
      have hitems := map_valueWithin_itemNodes items htextual hfaithful (Nat.le_of_succ_le_succ hfuel)
      exact congrArg Value.array hitems
  | .object members, htextual, hfaithful, fuel, hfuel => by
      obtain ⟨fuel, rfl⟩ := Nat.exists_eq_add_of_le' (Nat.le_of_add_left_le hfuel)
      have hmembers := filterMap_valueWithin_entryNodes members htextual hfaithful.2
        (Nat.le_of_succ_le_succ hfuel)
      simp only [Value.node, valueWithin, tag, allEntries_entryNodes, hmembers]
      rw [Json.ofList_of_nodup hfaithful.1]

/-- The nodes of items have the items as their values. -/
theorem map_valueWithin_itemNodes : (items : List Value) → Value.AllTextual items →
    Json.FaithfulItems items → ∀ {fuel : Nat}, itemsHeight (Value.itemNodes items) ≤ fuel →
      (Value.itemNodes items).map (valueWithin fuel) = items
  | [], _, _, _, _ => rfl
  | v :: rest, htextual, hfaithful, fuel, hfuel => by
      obtain ⟨hv, hrest⟩ := Nat.max_le.mp hfuel
      rw [Value.itemNodes, List.map_cons, valueWithin_node v htextual.1 hfaithful.1 hv,
        map_valueWithin_itemNodes rest htextual.2 hfaithful.2 hrest]

/-- The nodes of members have the members as their values. -/
theorem filterMap_valueWithin_entryNodes : (members : List (Text × Value)) →
    Value.MembersTextual members → Json.FaithfulMembers members → ∀ {fuel : Nat},
      entriesHeight (Value.entryNodes members) ≤ fuel →
        ((Value.entryNodes members).map fun e => (valueWithin fuel e.1, valueWithin fuel e.2)).filterMap
          (fun e => member? e.1 e.2) = members
  | [], _, _, _, _ => rfl
  | (key, v) :: rest, htextual, hfaithful, fuel, hfuel => by
      obtain ⟨hentry, hrest⟩ := Nat.max_le.mp hfuel
      obtain ⟨hkey, hv⟩ := Nat.max_le.mp hentry
      have hkeyValue : valueWithin fuel (.scalar .text key) = .str key := by
        obtain ⟨fuel, rfl⟩ := Nat.exists_eq_add_of_le' hkey
        rfl
      rw [Value.entryNodes, List.map_cons, hkeyValue, valueWithin_node v htextual.2.1 hfaithful.1 hv,
        List.filterMap_cons, filterMap_valueWithin_entryNodes rest htextual.2.2 hfaithful.2 hrest]
      rfl

end

/-- The node of a value that is made of texts has this value. -/
theorem toValue_node {v : Value} (htextual : v.IsTextual) (hfaithful : Json.Faithful v) :
    toValue v.node = .ok v := by
  have hlevels := openLevels_map_node (List.forall_mem_singleton.mpr htextual) v.node.height
  rw [List.map_singleton] at hlevels
  rw [toValue, check_node htextual, hlevels]
  exact congrArg Except.ok (valueWithin_node v htextual hfaithful (Nat.le_refl _))

end Yaml.Node

/-! ## The whole text -/

namespace Yaml

open Scanner (itemsText membersText itemsText_cons membersText_cons write_array write_object)

mutual

/-- The JSON form of a value that is made of texts that can be typed can be typed. -/
theorem isTypeable_write : (v : Value) → v.IsTextual → Text.isTypeable (Json.write v) = true
  | .str _, hs => Json.isTypeable_writeText hs
  | .array [], _ => by decide
  | .array (v :: items), ⟨hv, hitems⟩ => by
      rw [← List.append_nil (Json.write _), write_array, Text.isTypeable_cons, Text.isTypeable_append,
        Text.isTypeable_append, isTypeable_write v hv, isTypeable_itemsText items hitems]
      rfl
  | .object [], _ => by decide
  | .object ((key, v) :: members), ⟨hkey, hv, hmembers⟩ => by
      rw [← List.append_nil (Json.write _), write_object, Text.isTypeable_cons, Text.isTypeable_append,
        Text.isTypeable_cons, Text.isTypeable_append, Text.isTypeable_append,
        Json.isTypeable_writeText hkey.typeable, isTypeable_write v hv,
        isTypeable_membersText members hmembers]
      rfl

/-- Items that are made of texts are written in code points that can be typed. -/
theorem isTypeable_itemsText : (items : List Value) → Value.AllTextual items →
    Text.isTypeable (itemsText items) = true
  | [], _ => rfl
  | v :: items, ⟨hv, hitems⟩ => by
      rw [itemsText_cons, Text.isTypeable_cons, Text.isTypeable_append, isTypeable_write v hv,
        isTypeable_itemsText items hitems]
      rfl

/-- Members that are made of texts are written in code points that can be typed. -/
theorem isTypeable_membersText : (members : List (Text × Value)) → Value.MembersTextual members →
    Text.isTypeable (membersText members) = true
  | [], _ => rfl
  | (key, v) :: members, ⟨hkey, hv, hmembers⟩ => by
      rw [membersText_cons, Text.isTypeable_cons, Text.isTypeable_append, Text.isTypeable_cons,
        Text.isTypeable_append, Json.isTypeable_writeText hkey.typeable, isTypeable_write v hv,
        isTypeable_membersText members hmembers]
      rfl

end

/-- The document that a JSON text is has one node, that of its value. -/
theorem Document.ofText_write {v : Value} (hv : v.IsTextual) :
    Document.ofText (Json.write v) = .ok (some v.node) := by
  unfold Document.ofText
  rw [TokenStream.ofText_write hv]
  dsimp only
  rw [if_neg nofun, Document.ofTokens_tokens hv]
  dsimp only [Option.map_some]
  rw [Node.unfold, Node.hasEnclosing_node]
  rfl

/-- Read as YAML, the JSON form of a value that is made of texts that can be typed is the value. -/
theorem read_write {v : Value} (htextual : v.IsTextual) (hfaithful : Json.Faithful v) :
    read (Json.write v) = .ok v := by
  have hallowed : (Json.write v).all isAllowed = true := by
    rw [List.all_eq_true]
    intro c hc
    have htypeable := List.all_eq_true.mp (isTypeable_write v htextual) c hc
    simp only [CodePoint.isTypeable] at htypeable
    simp [isAllowed, htypeable]
  unfold read
  rw [hallowed, Document.ofText_write htextual]
  exact Node.toValue_node htextual hfaithful

end Yaml

end PageTree
