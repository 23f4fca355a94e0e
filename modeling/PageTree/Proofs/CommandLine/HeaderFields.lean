import PageTree.CommandLine.Arguments
import PageTree.Proofs.Basic
import PageTree.Proofs.Text.Cut
import Mathlib.Data.List.Nodup

/-!
# Header fields on the command line

The option for header fields can be given more than once, each time with fields behind it. Two things meet
here. Within one option fields gather: of fields with one name the last one counts (`gathers_update`). From
one option to the next they do not: what a later option spells replaces what earlier ones have spelled
(`run_headerOptions`). So all fields are kept just if the last option names all the names that earlier ones
named, and then its values are the last ones anyway (`parse_gathers_iff`).
-/

set_option autoImplicit false

namespace PageTree

/-! ## Setting header fields -/

namespace Headers

/-- Header fields with one of them set. -/
def set (headers : Headers) (h : Text × Text) : Headers :=
  if headers.any (·.1 == h.1) then headers.map fun old => if old.1 = h.1 then h else old
  else headers ++ [h]

/-- Fields are taken over one after the other, the first one first. -/
theorem update_cons (headers : Headers) (h : Text × Text) (rest : Headers) :
    headers.update (h :: rest) = (headers.set h).update rest := rfl

/-- Header fields that gather others have their names, each once, and for each name the last of its
values. -/
structure Gathers (headers fields : Headers) : Prop where
  once : (headers.map Prod.fst).Nodup
  value : ∀ name, headers.lookup name = fields.reverse.lookup name

variable {headers : Headers}

/-- Nothing is found for a name just if no field has it. -/
theorem lookup_eq_none_iff {name : Text} : headers.lookup name = none ↔ name ∉ headers.map Prod.fst := by
  simp only [List.lookup_eq_none_iff, bne_iff_ne, List.mem_map, not_exists, not_and]
  exact ⟨fun h p hp hname => h p hp hname.symm, fun h p hp hname => h p hp hname.symm⟩

/-- Setting a field adds its name behind the others, unless it is there. -/
theorem map_fst_set (h : Text × Text) :
    (headers.set h).map Prod.fst =
      if h.1 ∈ headers.map Prod.fst then headers.map Prod.fst else headers.map Prod.fst ++ [h.1] := by
  have hany : headers.any (·.1 == h.1) = true ↔ h.1 ∈ headers.map Prod.fst := by
    simp [List.any_eq_true]
  have hkept (old : Text × Text) : (if old.1 = h.1 then h else old).1 = old.1 := by
    split
    · next heq => exact heq.symm
    · rfl
  unfold set
  simp only [hany]
  split
  · rw [List.map_map]
    exact List.map_congr_left fun old _ => hkept old
  · rw [List.map_append]
    rfl

/-- The first field is found by its name, and the others by theirs. -/
theorem lookup_cons_eq_ite (h : Text × Text) (name : Text) :
    List.lookup name (h :: headers) = if name = h.1 then some h.2 else headers.lookup name := by
  rw [List.lookup_cons]
  by_cases hname : name = h.1
  · simp [hname]
  · simp [hname, beq_eq_false_iff_ne.mpr hname]

/-- Replacing the fields of a name replaces what is found for it and for nothing else. -/
theorem lookup_replace (h : Text × Text) (name : Text) :
    (headers.map fun old => if old.1 = h.1 then h else old).lookup name =
      if name = h.1 then (headers.lookup name).map fun _ => h.2 else headers.lookup name := by
  induction headers with
  | nil => simp
  | cons old rest ih =>
      rw [List.map_cons, lookup_cons_eq_ite, lookup_cons_eq_ite, ih]
      by_cases hold : old.1 = h.1
      · rw [if_pos hold, hold]
        split <;> rfl
      · rw [if_neg hold]
        by_cases hname : name = h.1
        · have hne : name ≠ old.1 := fun heq => hold (heq.symm.trans hname)
          rw [if_pos hname, if_pos hname, if_neg hne, if_neg hne]
        · rw [if_neg hname, if_neg hname]

/-- After a field has been set, its value is found for its name, and for other names what was found before. -/
theorem lookup_set (h : Text × Text) (name : Text) :
    (headers.set h).lookup name = if name = h.1 then some h.2 else headers.lookup name := by
  unfold set
  split
  · next hany =>
      obtain ⟨old, hold, hkey⟩ := List.any_eq_true.mp hany
      rw [lookup_replace]
      -- There is a field of this name already, and its value is replaced where it stands.
      by_cases hname : name = h.1
      · have hsome : (headers.lookup name).isSome = true :=
          List.lookup_isSome_iff.mpr ⟨old, hold, beq_iff_eq.mpr (hname.trans (beq_iff_eq.mp hkey).symm)⟩
        obtain ⟨value, hvalue⟩ := Option.isSome_iff_exists.mp hsome
        rw [if_pos hname, if_pos hname, hvalue, Option.map_some]
      · rw [if_neg hname, if_neg hname]
  · next hany =>
      have hnone : headers.lookup h.1 = none := by
        rw [List.lookup_eq_none_iff]
        intro old hold
        rw [bne_iff_ne]
        intro heq
        exact hany (List.any_eq_true.mpr ⟨old, hold, beq_iff_eq.mpr heq.symm⟩)
      rw [List.lookup_append, lookup_cons_eq_ite, List.lookup_nil]
      by_cases hname : name = h.1
      · rw [if_pos hname, if_pos hname, hname, hnone, Option.none_or]
      · rw [if_neg hname, if_neg hname, Option.or_none]

/-- After fields have been taken over, the last value given to a name is found for it, and without one what
was found before. -/
theorem lookup_update (fields : Headers) (name : Text) :
    (headers.update fields).lookup name = (fields.reverse.lookup name).or (headers.lookup name) := by
  induction fields generalizing headers with
  | nil => rfl
  | cons h rest ih =>
      rw [update_cons, ih, lookup_set, List.reverse_cons, List.lookup_append, Option.or_assoc,
        lookup_cons_eq_ite, List.lookup_nil]
      by_cases hname : name = h.1
      · rw [if_pos hname, if_pos hname, Option.some_or]
      · rw [if_neg hname, if_neg hname, Option.none_or]

/-- Taking fields over brings no name in twice. -/
theorem nodup_update (h : (headers.map Prod.fst).Nodup) (fields : Headers) :
    ((headers.update fields).map Prod.fst).Nodup := by
  induction fields generalizing headers with
  | nil => exact h
  | cons field rest ih =>
      have hset : ((headers.set field).map Prod.fst).Nodup := by
        rw [map_fst_set]
        split
        · exact h
        · next hnew => exact List.concat_eq_append ▸ h.concat hnew
      exact ih hset

/-- The fields taken over into none gather what was given. -/
theorem gathers_update (fields : Headers) : (update [] fields).Gathers fields where
  once := nodup_update (by simp) fields
  value name := by rw [lookup_update, List.lookup_nil, Option.or_none]

/-- What gathers some fields gathers earlier ones with them just if it has their names. -/
theorem Gathers.append_iff {earlier fields : Headers} (h : headers.Gathers fields) :
    headers.Gathers (earlier ++ fields) ↔ ∀ f ∈ earlier, f.1 ∈ fields.map Prod.fst := by
  have hlookup (name : Text) : (earlier ++ fields).reverse.lookup name =
      (headers.lookup name).or (earlier.reverse.lookup name) := by
    rw [List.reverse_append, List.lookup_append, h.value]
  have hnames (name : Text) : headers.lookup name = none ↔ name ∉ fields.map Prod.fst := by
    rw [h.value, lookup_eq_none_iff, List.map_reverse, List.mem_reverse]
  constructor
  · intro hall f hf
    by_contra hnew
    have hnone := (hnames f.1).mpr hnew
    have hvalue := hall.value f.1
    rw [hlookup, hnone, Option.none_or, eq_comm, lookup_eq_none_iff, List.map_reverse,
      List.mem_reverse] at hvalue
    exact hvalue (List.mem_map_of_mem hf)
  · intro hsub
    refine ⟨h.once, fun name => ?_⟩
    rw [hlookup]
    cases hvalue : headers.lookup name with
    | some value => rfl
    | none =>
        rw [Option.none_or, eq_comm, lookup_eq_none_iff, List.map_reverse, List.mem_reverse]
        intro hname
        obtain ⟨f, hf, rfl⟩ := List.mem_map.mp hname
        exact (hnames f.1).mp hvalue (hsub f hf)

end Headers

/-! ## Sorting the words -/

namespace CommandLine

/-- A word that spells a header field. It does not look like an option. -/
structure SpellsField (s : Text) : Prop where
  plain : s.head? ≠ some (CodePoint.ofChar '-')
  equals : CodePoint.ofChar '=' ∈ s

instance (s : Text) : Decidable (SpellsField s) :=
  decidable_of_iff (s.head? ≠ some (CodePoint.ofChar '-') ∧ CodePoint.ofChar '=' ∈ s)
    ⟨fun h => ⟨h.1, h.2⟩, fun h => ⟨h.plain, h.equals⟩⟩

/-- The words of the option for header fields and of what is given to it. -/
def headerOption (words : List Text) : List Text := text "--headers" :: words

/-- The same words, sorted. -/
def sortedOption (words : List Text) : List Word := .option .headers false none :: words.map .plain

namespace Word

/-- A word is sorted before those behind it. -/
theorem sort_cons {s : Text} {rest : List Text} {word : Word} {words : List Word}
    (hs : s ≠ text "--") (hword : ofText s = .ok word) (hrest : sort rest = .ok words) :
    sort (s :: rest) = .ok (word :: words) := by
  rw [sort, if_neg hs, hword]
  dsimp only
  rw [hrest]

/-- A word that does not begin with a dash is a plain one. -/
theorem sort_plain_cons {s : Text} {rest : List Text} {words : List Word}
    (hs : s.head? ≠ some (CodePoint.ofChar '-')) (hrest : sort rest = .ok words) :
    sort (s :: rest) = .ok (.plain s :: words) := by
  refine sort_cons ?_ (if_pos (.inl hs)) hrest
  rintro rfl
  exact hs rfl

/-- Words that spell fields are plain ones. -/
theorem sort_plain_append {words rest : List Text} {sorted : List Word}
    (hwords : ∀ s ∈ words, SpellsField s) (hrest : sort rest = .ok sorted) :
    sort (words ++ rest) = .ok (words.map .plain ++ sorted) := by
  induction words with
  | nil => exact hrest
  | cons s words ih =>
      obtain ⟨hs, hwords⟩ := List.forall_mem_cons.mp hwords
      exact sort_plain_cons hs.plain (ih hwords)

/-- A header option is sorted into its name and its fields, as often as it is given. -/
theorem sort_headerOptions {groups : List (List Text)} (h : ∀ g ∈ groups, ∀ s ∈ g, SpellsField s) :
    sort (groups.flatMap headerOption) = .ok (groups.flatMap sortedOption) := by
  induction groups with
  | nil => rfl
  | cons g groups ih =>
      obtain ⟨hg, hgroups⟩ := List.forall_mem_cons.mp h
      exact sort_cons (by decide) (by decide) (sort_plain_append hg (ih hgroups))

end Word

/-! ## The walk -/

/-- The header fields that words spell. -/
def fields (words : List Text) : Headers := words.filterMap pair?

/-- Words that spell fields are cut into these fields. -/
theorem mapM_pair? {words : List Text} (h : ∀ s ∈ words, SpellsField s) :
    words.mapM pair? = some (fields words) := by
  have hsome : (words.mapM pair?).isSome = true := by
    rw [isSome_mapM_iff]
    intro s hs
    obtain ⟨name, value, rfl, hname⟩ := Text.exists_first (h s hs).equals
    rw [pair?, Text.cut_of_split hname]
    rfl
  obtain ⟨pairs, hpairs⟩ := Option.isSome_iff_exists.mp hsome
  rw [hpairs, fields, filterMap_eq_of_mapM hpairs]

/-- Arguments with the header fields that words spell, and no other header fields. -/
def Arguments.withFields (a : Arguments) (words : List Text) : Arguments :=
  { a with headers := some (Headers.update [] (fields words)) }

namespace Walk

variable {w settled : Walk}

/-- The walk when the option for header fields has words behind it. -/
def taking (w : Walk) (words : List Text) : Walk :=
  { w with afterMetadata := false, waiting := .pairs words }

/-- The walk when these words are all. -/
def having (w : Walk) (words : List Text) : Walk :=
  { w with afterMetadata := false, arguments := w.arguments.withFields words, waiting := .nothing }

/-- An option that takes words takes all the plain words behind it. -/
theorem run_taking (taken words : List Text) (rest : List Word) :
    (w.taking taken).run (words.map .plain ++ rest) = (w.taking (taken ++ words)).run rest := by
  induction words generalizing taken with
  | nil => rw [List.append_nil]; rfl
  | cons s words ih =>
      show (w.taking (taken ++ [s])).run (words.map .plain ++ rest) = _
      rw [ih, List.append_assoc]
      rfl

/-- An option takes the words behind it once the one before it has been settled. -/
theorem run_sortedOption (h : w.settle = .ok settled) (words : List Text) (rest : List Word) :
    w.run (sortedOption words ++ rest) = (settled.taking words).run rest := by
  have hstep : w.step (.option .headers false none) = .ok (settled.taking []) := by
    rw [step, h]
    rfl
  rw [sortedOption, List.cons_append, run, hstep]
  exact run_taking [] words rest

/-- The fields that the words spell replace those of an option before. -/
theorem settle_taking {words : List Text} (hne : words ≠ []) (hwords : ∀ s ∈ words, SpellsField s) :
    (w.taking words).settle = .ok (w.having words) := by
  obtain ⟨s, rest, rfl⟩ := List.exists_cons_of_ne_nil hne
  have hset : setHeaders (s :: rest) w.arguments = .ok (w.arguments.withFields (s :: rest)) := by
    rw [setHeaders, mapM_pair? hwords]
    rfl
  show (setHeaders (s :: rest) w.arguments).map _ = _
  rw [hset]
  rfl

/-- Of several options for header fields the last one counts. -/
theorem run_headerOptions (h : w.settle = .ok settled) (earlier : List (List Text)) (last : List Text)
    (hgroups : ∀ g ∈ earlier ++ [last], g ≠ [] ∧ ∀ s ∈ g, SpellsField s) :
    w.run ((earlier ++ [last]).flatMap sortedOption) = .ok (settled.having last) := by
  induction earlier generalizing w settled with
  | nil =>
      obtain ⟨hne, hwords⟩ := hgroups last (List.mem_singleton_self _)
      have hrun := run_sortedOption h last []
      rw [List.append_nil] at hrun
      rw [List.nil_append, List.flatMap_singleton, hrun, run]
      exact settle_taking hne hwords
  | cons g earlier ih =>
      obtain ⟨⟨hne, hwords⟩, hgroups⟩ := List.forall_mem_cons.mp hgroups
      rw [List.cons_append, List.flatMap_cons, run_sortedOption h]
      -- What the earlier options gave is in the arguments, and does not show behind the last one.
      have hrest := ih (settle_taking (w := settled) hne hwords) hgroups
      exact hrest

end Walk

/-! ## All header fields -/

/-- After the path of a file, options for header fields are always understood, and what they give are the
fields of the last one. They are the fields of all the options, the last of each name, just if the last option
has every name that an earlier one has. -/
theorem parse_gathers_iff {path : Text} (hpath : path.head? ≠ some (CodePoint.ofChar '-'))
    (earlier : List (List Text)) (last : List Text)
    (hgroups : ∀ g ∈ earlier ++ [last], g ≠ [] ∧ ∀ s ∈ g, SpellsField s) :
    ∃ headers, Arguments.parse (path :: (earlier ++ [last]).flatMap headerOption) =
        .ok { unset with metadata := path, headers := some headers } ∧
      headers.Gathers (fields last) ∧
      (headers.Gathers (fields (earlier ++ [last]).flatten) ↔
        ∀ f ∈ fields earlier.flatten, f.1 ∈ (fields last).map Prod.fst) := by
  have hgathers := Headers.gathers_update (fields last)
  refine ⟨_, ?_, hgathers, ?_⟩
  · have hsort := Word.sort_plain_cons hpath (Word.sort_headerOptions fun g hg => (hgroups g hg).2)
    have hrun : Walk.start.run (.plain path :: (earlier ++ [last]).flatMap sortedOption) = _ :=
      Walk.run_headerOptions (w := ⟨some path, true, unset, [], .nothing⟩) rfl earlier last hgroups
    rw [Arguments.parse, hsort]
    dsimp only
    rw [hrun]
    rfl
  · have hfields : fields (earlier ++ [last]).flatten = fields earlier.flatten ++ fields last := by
      rw [List.flatten_append, List.flatten_singleton]
      exact List.filterMap_append
    rw [hfields]
    exact hgathers.append_iff

/-- The last option names again what the first one named, and so nothing is lost. -/
theorem repeated_names_are_gathered :
    (text "m.json").head? ≠ some (CodePoint.ofChar '-') ∧
    (∀ g ∈ [[text "A=1"], [text "B=x=y", text "A=2"]], g ≠ [] ∧ ∀ s ∈ g, SpellsField s) ∧
    ∃ headers, Arguments.parse [text "m.json", text "--headers", text "A=1", text "--headers",
        text "B=x=y", text "A=2"] = .ok { unset with metadata := text "m.json", headers := some headers } ∧
      headers.Gathers (fields [text "A=1", text "B=x=y", text "A=2"]) := by
  have hpath : (text "m.json").head? ≠ some (CodePoint.ofChar '-') := by decide
  have hgroups : ∀ g ∈ [[text "A=1"], [text "B=x=y", text "A=2"]], g ≠ [] ∧ ∀ s ∈ g, SpellsField s := by
    decide
  obtain ⟨headers, hparse, -, hiff⟩ :=
    parse_gathers_iff hpath [[text "A=1"]] [text "B=x=y", text "A=2"] hgroups
  exact ⟨hpath, hgroups, headers, hparse, hiff.mpr (by decide)⟩

/-- A field of the first option is lost behind a second option that names another one. -/
theorem earlier_field_is_lost :
    Arguments.parse [text "m.json", text "--headers", text "A=1", text "--headers", text "B=2"] =
        .ok { unset with metadata := text "m.json", headers := some [(text "B", text "2")] } ∧
      ¬ Headers.Gathers [(text "B", text "2")] (fields [text "A=1", text "B=2"]) := by
  refine ⟨by decide +kernel, fun h => ?_⟩
  have hvalue := h.value (text "A")
  revert hvalue
  decide

end CommandLine

end PageTree
