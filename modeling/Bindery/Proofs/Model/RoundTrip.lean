import Bindery.Model.Decode
import Bindery.Proofs.Json.Reading
import Bindery.Proofs.Json.Rereading

/-! A graph that was read is read again from its own text.

Members that say nothing are left out when a record is written, and are blank when it is read
without them; a list of names that is kept as a set is read into the same set; data for templates is
written in the order of its keys. So each kind of record is read again, from the innermost ones to
graphs (`ModelGraph.rereads`), and what is written of a graph that was read is read as the same
graph, if its numbers are read back (`ModelGraph.parse_compact`). -/
namespace Bindery

open Json.Outline (Record Rereads ofJson Settled)

/-! ### Imports and references -/

theorem set_ok {α β : Type} {read : Except Json.Fault β} {f : β → α} {b : β}
    (h : read = .ok b) : (do return f (← read)) = .ok (f b) := by
  rw [h]
  rfl

/-- Nothing has to be known of a record whose members are scalars. -/
theorem keeps_true {α : Type} (r : Record α) : r.Keeps fun _ => True := fun _ _ _ _ _ _ => trivial

theorem Import.rereads : Rereads Import.record.read Import.toJson :=
  Record.rereads (fun _ => rfl) (by decide)
    (fun i key hkey => by simp_all [Import.record, Entries.keys]) trivial (keeps_true _)
    fun i _ => ((Record.Writes.given (fun source => { name := "", source }) rfl
      fun _ _ => rfl).append (.cons rfl .nil)).append
        (.given (fun asName => { i with asName }) rfl fun _ _ => rfl)

theorem ResolvedReference.rereads :
    Rereads ResolvedReference.record.read ResolvedReference.toJson :=
  Record.rereads (fun _ => rfl) (by decide)
    (fun i key hkey => by simp_all [ResolvedReference.record, Entries.keys, or_assoc.symm])
    trivial (keeps_true _) fun i _ => .cons rfl (.cons rfl (.cons rfl .nil))

/-- A path in a schema is written as a record with one member. -/
def originJson (path : String) : Json := .object [("path", .string path)]

theorem rereads_origin : Rereads originRecord.read originJson :=
  Record.rereads (fun _ => rfl) (by decide)
    (fun i key hkey => by simp_all [originRecord, Entries.keys]) trivial
    (keeps_true _) fun i _ => .cons rfl .nil

/-! ### Types -/

namespace DataType

theorem listToJson_eq_map (ts : List DataType) : listToJson ts = ts.map toJson := by
  induction ts with
  | nil => rfl
  | cons t rest ih => rw [listToJson, ih, List.map_cons]

/-- The member for the parameters of a type, if there are any. -/
def parameterMembers : List DataType → List (String × Json)
  | [] => []
  | p :: ps => [("data_types", .array (listToJson (p :: ps)))]

def members (t : DataType) : List (String × Json) :=
  ("type", .string t.name) :: (Json.given "module_name" .string t.home ++
    Json.given "reference" originJson t.origin ++ Json.given "container" .string t.container ++
    parameterMembers t.parameters)

theorem toJson_eq (t : DataType) : t.toJson = .object t.members := by
  obtain ⟨name, home, origin, container, parameters⟩ := t
  cases parameters <;> rw [toJson] <;> rfl

/-- What is known of a type that was read: its parameters and its origin are read again. -/
structure Settled (levels : Nat)
    (readParameters : Json.Outline → Except Json.Fault (List DataType)) (t : DataType) : Prop where
  origin : ∀ path, t.origin = some path →
    (ofJson (originJson path)).optional (Record.nested levels fun _ => originRecord) =
      .ok (some path)
  parameters : t.parameters ≠ [] →
    readParameters (ofJson (.array (listToJson t.parameters))) = .ok t.parameters

theorem keeps_settled {levels : Nat}
    {readParameters : Json.Outline → Except Json.Fault (List DataType)}
    (h : Rereads readParameters fun ts => .array (listToJson ts)) :
    (record levels readParameters).Keeps (Settled levels readParameters) := by
  intro key o t t' ht hset
  unfold record at hset
  dsimp only at hset
  split at hset
  · obtain ⟨name, _, hset⟩ := Except.bind_eq_ok hset
    cases hset
    exact ⟨ht.origin, ht.parameters⟩
  · obtain ⟨home, _, hset⟩ := Except.bind_eq_ok hset
    cases hset
    exact ⟨ht.origin, ht.parameters⟩
  · obtain ⟨origin, horigin, hset⟩ := Except.bind_eq_ok hset
    cases hset
    refine ⟨fun path hpath => ?_, ht.parameters⟩
    obtain rfl : origin = some path := hpath
    exact (Record.rereads_nested fun _ _ => rereads_origin).optional (fun _ => nofun) horigin
  · obtain ⟨container, _, hset⟩ := Except.bind_eq_ok hset
    cases hset
    exact ⟨ht.origin, ht.parameters⟩
  · obtain ⟨parameters, hparameters, hset⟩ := Except.bind_eq_ok hset
    cases hset
    exact ⟨ht.origin, fun _ => h hparameters⟩
  · cases hset
    exact ht

theorem rereads_record {levels : Nat}
    {readParameters : Json.Outline → Except Json.Fault (List DataType)}
    (h : Rereads readParameters fun ts => .array (listToJson ts)) :
    Rereads (record levels readParameters).read toJson := by
  refine Record.rereads (P := Settled levels readParameters) toJson_eq (by simp [record])
    (fun t key hkey => by simp_all [record, members, Entries.keys]) ⟨nofun, nofun⟩
    (keeps_settled h) fun t ht => ?_
  obtain ⟨name, home, origin, container, parameters⟩ := t
  have hhome : (record levels readParameters).Writes ["module_name"]
      (Json.given "module_name" .string home) { name } { name, home } :=
    .given (fun home => ({ name, home } : DataType)) rfl fun _ _ => rfl
  have horigin : (record levels readParameters).Writes ["reference"]
      (Json.given "reference" originJson origin) { name, home } { name, home, origin } :=
    .given (fun origin => ({ name, home, origin } : DataType)) rfl fun path hpath =>
      set_ok (f := fun origin => ({ name, home, origin } : DataType)) (ht.origin path hpath)
  have hcontainer : (record levels readParameters).Writes ["container"]
      (Json.given "container" .string container) { name, home, origin }
      { name, home, origin, container } :=
    .given (fun container => ({ name, home, origin, container } : DataType)) rfl fun _ _ => rfl
  have hparameters : (record levels readParameters).Writes ["data_types"]
      (parameterMembers parameters) { name, home, origin, container }
      { name, home, origin, container, parameters } := by
    cases parameters with
    | nil => exact ⟨List.nil_sublist _, rfl⟩
    | cons p ps =>
      exact .cons (set_ok (f := fun parameters =>
        ({ name, home, origin, container, parameters } : DataType)) (ht.parameters nofun)) .nil
  exact .cons rfl (((hhome.append horigin).append hcontainer).append hparameters)

theorem readList_eq_list (levels : Nat) : readList levels = Json.Outline.list levels read := by
  funext o
  cases levels <;> cases o <;> rfl

theorem rereads_readList {levels : Nat} (h : ∀ n, n + 1 = levels → Rereads (read n) toJson) :
    Rereads (readList levels) fun ts => .array (listToJson ts) := by
  rw [readList_eq_list]
  simp only [listToJson_eq_map]
  exact Rereads.list h

/-- **A type that was read is read again**, however deep its parameters nest. -/
theorem rereads (levels : Nat) : Rereads (read levels) toJson := by
  induction levels using Nat.strongRecOn with
  | ind levels ih =>
    cases levels with
    | zero => exact nofun
    | succ n =>
      intro o t h
      rw [read] at h ⊢
      exact rereads_record (rereads_readList fun m hm => ih m (by omega)) h

end DataType

/-! ### Fields -/

/-- What is known of a field that was read. -/
structure Field.Settled (levels : Nat) (f : Field) : Prop where
  type : DataType.read levels (ofJson f.type.toJson) = .ok f.type
  default : ∀ v, f.default = some v →
    (ofJson v).optional (Json.Outline.value levels) = .ok (some v)

theorem Field.keeps_settled (levels : Nat) : (record levels).Keeps (Settled levels) := by
  intro key o f f' hf hset
  unfold record at hset
  dsimp only at hset
  split at hset
  case h_3 =>
    obtain ⟨type, htype, hset⟩ := Except.bind_eq_ok hset
    cases hset
    exact ⟨DataType.rereads levels htype, hf.default⟩
  case h_5 =>
    obtain ⟨default, hdefault, hset⟩ := Except.bind_eq_ok hset
    cases hset
    refine ⟨hf.type, fun v hv => ?_⟩
    obtain rfl : default = some v := hv
    exact Json.Outline.optional_value hdefault
  case h_8 =>
    cases hset
    exact hf
  all_goals
    obtain ⟨value, _, hset⟩ := Except.bind_eq_ok hset
    cases hset
    exact ⟨hf.type, hf.default⟩

theorem Field.rereads {levels : Nat} (hlevels : 0 < levels) :
    Rereads (record levels).read toJson := by
  refine Record.rereads (P := Settled levels) (fun _ => rfl) (by simp [record])
    (fun f key hkey => ?_) ⟨?_, nofun⟩ (keeps_settled levels) fun f hf => ?_
  · simp only [record, List.mem_cons, List.not_mem_nil, or_false] at hkey
    obtain rfl | rfl := hkey <;> simp [Entries.keys]
  · cases levels with
    | zero => cases hlevels
    | succ n => rfl
  obtain ⟨name, wireAlias, type, required, default, description, stripDefaultNone⟩ := f
  have hname : (record levels).Writes ["name"] [("name", .string name)] (record levels).blank
      { name, type := { name := "" } } := .cons rfl .nil
  have halias : (record levels).Writes ["alias"] (Json.given "alias" .string wireAlias)
      { name, type := { name := "" } } { name, wireAlias, type := { name := "" } } :=
    .given (fun wireAlias => ({ name, wireAlias, type := { name := "" } } : Field)) rfl
      fun _ _ => rfl
  have htype : (record levels).Writes ["data_type", "required"]
      [("data_type", type.toJson), ("required", .bool required)]
      { name, wireAlias, type := { name := "" } } { name, wireAlias, type, required } :=
    .cons (set_ok (f := fun type => ({ name, wireAlias, type } : Field)) hf.type) (.cons rfl .nil)
  have hdefault : (record levels).Writes ["default"] (Json.given "default" id default)
      { name, wireAlias, type, required } { name, wireAlias, type, required, default } :=
    .given (fun default => ({ name, wireAlias, type, required, default } : Field)) rfl
      fun v hv => set_ok (f := fun default =>
        ({ name, wireAlias, type, required, default } : Field)) (hf.default v hv)
  have hdescription : (record levels).Writes ["description"]
      (Json.given "description" .string description)
      { name, wireAlias, type, required, default }
      { name, wireAlias, type, required, default, description } :=
    .given (fun description =>
      ({ name, wireAlias, type, required, default, description } : Field)) rfl fun _ _ => rfl
  exact ((((hname.append halias).append htype).append hdefault).append hdescription).append
    (.cons rfl .nil)

/-! ### Data for templates -/

namespace TemplateData

/-- A key above all that are bound comes last. -/
theorem insertEntry_last {key : String} {value : Json} {entries : Entries String Json}
    (h : ∀ k ∈ Entries.keys entries, compare k key = .lt) :
    insertEntry key value entries = entries ++ [(key, value)] := by
  induction entries with
  | nil => rfl
  | cons entry rest ih =>
    obtain ⟨k, v⟩ := entry
    obtain ⟨hk, hrest⟩ := List.forall_mem_cons.1 h
    have hgt : compare key k = .gt := Std.OrientedCmp.gt_of_lt hk
    rw [insertEntry, hgt, List.cons_append, ih hrest]

theorem entries_foldl_insert {bindings : Entries String Json} {data : TemplateData}
    (h : Increasing (Entries.keys (data.entries ++ bindings))) :
    (bindings.foldl (fun data b => data.insert b.1 b.2) data).entries =
      data.entries ++ bindings := by
  induction bindings generalizing data with
  | nil => exact (List.append_nil _).symm
  | cons b rest ih =>
    have hlast : (data.insert b.1 b.2).entries = data.entries ++ [b] := by
      refine insertEntry_last fun k hk => ?_
      rw [Entries.keys, List.map_append, List.map_cons] at h
      exact (List.pairwise_append.1 h).2.2 k hk b.1 List.mem_cons_self
    rw [List.foldl_cons, ih, hlast, List.append_assoc, List.singleton_append]
    rw [hlast, List.append_assoc, List.singleton_append]
    exact h

theorem ofList_entries (data : TemplateData) : ofList data.entries = data := by
  have hentries : (ofList data.entries).entries = data.entries :=
    entries_foldl_insert (show Increasing (Entries.keys (empty.entries ++ data.entries)) from
      data.increasing)
  generalize ofList data.entries = other at hentries
  obtain ⟨entries, hincreasing⟩ := data
  obtain ⟨entries', hincreasing'⟩ := other
  obtain rfl : entries' = entries := hentries
  rfl

theorem settled_insertEntry {levels : Nat} {key : String} {v : Json}
    (hv : Json.Outline.value levels (ofJson v) = .ok v) {entries : Entries String Json}
    (h : Settled levels entries) : Settled levels (insertEntry key v entries) := by
  induction entries with
  | nil => exact List.forall_mem_singleton.2 hv
  | cons entry rest ih =>
    obtain ⟨k, w⟩ := entry
    obtain ⟨hw, hrest⟩ := List.forall_mem_cons.1 h
    rw [insertEntry]
    split
    · exact List.forall_mem_cons.2 ⟨hv, h⟩
    · exact List.forall_mem_cons.2 ⟨hv, hrest⟩
    · exact List.forall_mem_cons.2 ⟨hw, ih hrest⟩

theorem settled_foldl_insert {levels : Nat} {bindings : List (String × Json)}
    (h : Settled levels bindings) {data : TemplateData} (hdata : Settled levels data.entries) :
    Settled levels (bindings.foldl (fun data b => data.insert b.1 b.2) data).entries := by
  induction bindings generalizing data with
  | nil => exact hdata
  | cons b rest ih =>
    obtain ⟨hb, hrest⟩ := List.forall_mem_cons.1 h
    exact ih hrest (settled_insertEntry hb hdata)

theorem nodup_keys (data : TemplateData) : (Entries.keys data.entries).Nodup := by
  refine data.increasing.imp fun {a b} h => ?_
  rintro rfl
  simp at h

theorem rereads (levels : Nat) : Rereads (read levels) fun data => .object data.entries := by
  intro o data h
  cases o with
  | object members closed =>
    cases levels with
    | zero => cases h
    | succ n =>
      obtain ⟨bindings, hbindings, h⟩ := Except.bind_eq_ok h
      obtain rfl := Json.Outline.ending_eq_ok h
      have hsettled : Settled n (ofList bindings).entries :=
        settled_foldl_insert (Json.Outline.settled_of_valueMembers n members
          (List.forall_mem_nil _) hbindings) (List.forall_mem_nil _)
      rw [ofJson, read, hsettled.valueMembers_nil (nodup_keys _)]
      exact congrArg _ (ofList_entries _)
  | null | bool _ | number _ | string _ | array _ _ | absent => cases h

end TemplateData

/-! ### Models -/

/-- What is known of a model that was read. -/
structure Model.Settled (levels : Nat) (m : Model) : Prop where
  fields : (ofJson (.array (m.fields.map Field.toJson))).list levels
    (fun n => Record.nested n Field.record) = .ok m.fields
  extraTypes : DataType.readList levels (ofJson (.array (DataType.listToJson m.extraTypes))) =
    .ok m.extraTypes
  imports : (ofJson (.array (m.imports.map Import.toJson))).list levels
    (fun n => Record.nested n fun _ => Import.record) = .ok m.imports
  templateData : TemplateData.read levels (ofJson (.object m.templateData.entries)) =
    .ok m.templateData

theorem readTexts_texts {levels : Nat} (hlevels : 0 < levels) (texts : List String) :
    readTexts levels (ofJson (Json.texts texts)) = .ok texts := by
  cases levels with
  | zero => cases hlevels
  | succ n => exact Json.Outline.list_ofJson fun _ _ => rfl

theorem optional_orNull (text : Option String) :
    (ofJson (Json.orNull .string text)).optional Json.Outline.text = .ok text := by
  cases text <;> rfl

theorem Kind.read_text (levels : Nat) (kind : Kind) :
    Kind.read levels (ofJson (.string kind.text)) = .ok kind := by
  cases kind <;> rfl

theorem Model.keeps_settled {levels : Nat} (hlevels : 2 < levels) :
    (record levels).Keeps (Settled levels) := by
  intro key o m m' hm hset
  unfold record at hset
  dsimp only at hset
  split at hset
  case h_3 =>
    obtain ⟨fields, hfields, hset⟩ := Except.bind_eq_ok hset
    cases hset
    refine ⟨Rereads.list (fun n hn => Record.rereads_nested fun k hk => ?_) hfields,
      hm.extraTypes, hm.imports, hm.templateData⟩
    exact Field.rereads (by omega)
  case h_6 =>
    obtain ⟨extraTypes, hextraTypes, hset⟩ := Except.bind_eq_ok hset
    cases hset
    exact ⟨hm.fields, DataType.rereads_readList (fun n _ => DataType.rereads n) hextraTypes,
      hm.imports, hm.templateData⟩
  case h_9 =>
    obtain ⟨imports, himports, hset⟩ := Except.bind_eq_ok hset
    cases hset
    exact ⟨hm.fields, hm.extraTypes,
      Rereads.list (fun n _ => Record.rereads_nested fun _ _ => Import.rereads) himports,
      hm.templateData⟩
  case h_11 =>
    obtain ⟨templateData, htemplateData, hset⟩ := Except.bind_eq_ok hset
    cases hset
    exact ⟨hm.fields, hm.extraTypes, hm.imports, TemplateData.rereads levels htemplateData⟩
  case h_12 =>
    cases hset
    exact hm
  all_goals
    obtain ⟨value, _, hset⟩ := Except.bind_eq_ok hset
    cases hset
    exact ⟨hm.fields, hm.extraTypes, hm.imports, hm.templateData⟩

theorem Model.rereads {levels : Nat} (hlevels : 2 < levels) :
    Rereads (record levels).read toJson := by
  refine Record.rereads (P := Settled levels) (fun _ => rfl) (by simp [record])
    (fun m key hkey => ?_) ?_ (keeps_settled hlevels) fun m hm => ?_
  · obtain rfl := List.mem_singleton.1 hkey
    exact List.mem_cons_self
  · cases levels with
    | zero => cases hlevels
    | succ n => exact ⟨rfl, rfl, rfl, rfl⟩
  · obtain ⟨name, kind, fields, bases, references, extraTypes, path, sourceFile, imports,
      description, templateData⟩ := m
    have htexts := fun texts => readTexts_texts (Nat.zero_lt_of_lt hlevels) texts
    -- the names of the set are read as a list, and their set is the one that lists them
    have hreferences := set_ok (f := fun names =>
      ({ name, kind, fields, bases, references := .ofList names } : Model))
      (htexts references.toList)
    rw [SortedSet.ofList_toList] at hreferences
    exact .cons rfl (.cons (set_ok (Kind.read_text levels kind)) (.cons (set_ok hm.fields)
      (.cons (set_ok (htexts bases)) (.cons hreferences (.cons (set_ok hm.extraTypes)
      (.cons (set_ok (htexts path)) (.cons (set_ok (optional_orNull sourceFile))
      (.cons (set_ok hm.imports) (.cons (set_ok (optional_orNull description))
      (.cons (set_ok hm.templateData) .nil))))))))))

/-! ### Graphs -/

/-- What is known of a graph that was read. -/
structure ModelGraph.Settled (levels : Nat) (g : ModelGraph) : Prop where
  models : (ofJson (.array (g.models.map Model.toJson))).list levels
    (fun n => Record.nested n Model.record) = .ok g.models
  references : (ofJson (.array (g.references.map ResolvedReference.toJson))).list levels
    (fun n => Record.nested n fun _ => ResolvedReference.record) = .ok g.references

theorem ModelGraph.keeps_settled {levels : Nat} (hlevels : 4 < levels) :
    (record levels).Keeps (Settled levels) := by
  intro key o g g' hg hset
  unfold record at hset
  dsimp only at hset
  split at hset
  case h_1 =>
    obtain ⟨models, hmodels, hset⟩ := Except.bind_eq_ok hset
    cases hset
    refine ⟨Rereads.list (fun n hn => Record.rereads_nested fun k hk => ?_) hmodels,
      hg.references⟩
    exact Model.rereads (by omega)
  case h_2 =>
    obtain ⟨references, hreferences, hset⟩ := Except.bind_eq_ok hset
    cases hset
    exact ⟨hg.models, Rereads.list
      (fun n _ => Record.rereads_nested fun _ _ => ResolvedReference.rereads) hreferences⟩
  case h_5 =>
    cases hset
    exact hg
  all_goals
    obtain ⟨value, _, hset⟩ := Except.bind_eq_ok hset
    cases hset
    exact ⟨hg.models, hg.references⟩

theorem ModelGraph.rereads {levels : Nat} (hlevels : 4 < levels) :
    Rereads (record levels).read toJson := by
  refine Record.rereads (P := Settled levels) (fun _ => rfl) (by simp [record])
    (fun g key hkey => ?_) ?_ (keeps_settled hlevels) fun g hg => ?_
  · obtain rfl := List.mem_singleton.1 hkey
    exact List.mem_cons_self
  · cases levels with
    | zero => cases hlevels
    | succ n => exact ⟨rfl, rfl⟩
  · have htexts := readTexts_texts (Nat.zero_lt_of_lt hlevels) g.statements
    exact .cons (set_ok hg.models) (.cons (set_ok hg.references) (.cons (set_ok htexts)
      (.cons (set_ok (optional_orNull g.sourceFile)) .nil)))

/-- **A graph that was read is read again from its own text.** If a text is read as a graph, the
compact text of the graph is read as the same graph: with the same models, fields, types, imports
and references, and with the members of free-form values in the same order. All that is asked is
that the numbers in the graph are what their texts are read as. -/
theorem ModelGraph.parse_compact {text : String} {g : ModelGraph} (h : parse text = .ok g)
    (hnumbers : ∀ n ∈ g.toJson.numbers, n.ReadsBack) : parse g.toJson.compact = .ok g := by
  obtain ⟨g', hread, hended⟩ := Except.bind_eq_ok h
  obtain rfl := Json.Outline.ending_eq_ok hended
  rw [parse, Json.read_compact _ hnumbers]
  exact Record.rereads_nested (fun n hn => rereads (by rw [Json.greatestDepth] at hn; omega)) hread

/-- A graph with a default in it, in which a key comes twice. -/
def sizeText : String :=
  "\x7b\"models\":[\x7b\"name\":\"A\",\"fields\":[\x7b\"name\":\"x\",\"data_type\":" ++
  "\x7b\"type\":\"int\"\x7d,\"default\":\x7b\"b\":1,\"a\":[7],\"b\":2.5\x7d\x7d]\x7d]\x7d"

theorem parse_compact_of_size : ∃ g, ModelGraph.parse sizeText = .ok g ∧
    g.toJson.numbers = [.double ⟨false, 5 * Nat.pow 2 50, -51⟩, .integer 7] ∧
    (∀ n ∈ g.toJson.numbers, n.ReadsBack) ∧ ModelGraph.parse g.toJson.compact = .ok g := by
  have hnumbers : (ModelGraph.parse sizeText).map (·.toJson.numbers) =
      .ok [.double ⟨false, 5 * Nat.pow 2 50, -51⟩, .integer 7] := by decide +kernel
  have hback : ∀ n ∈ [Json.Number.double ⟨false, 5 * Nat.pow 2 50, -51⟩, .integer 7],
      n.ReadsBack := by decide
  cases hg : ModelGraph.parse sizeText with
  | error fault =>
    rw [hg] at hnumbers
    cases hnumbers
  | ok g =>
    rw [hg] at hnumbers
    have hlist := Except.ok.inj hnumbers
    rw [← hlist] at hback
    exact ⟨g, rfl, hlist, hback, ModelGraph.parse_compact hg hback⟩

end Bindery
