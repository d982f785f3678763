import Reconciliation.Proofs.Object.Codec

namespace Reconciliation.Object

/-!
# Objects that become values and are read back

* `find?_toFields` — a field of the value of an object is one of the body, or else of the envelope;
* `body_of_readFields` — every other field that is read goes into the body;
* `Tells`, `Agrees` — what a field tells of an object, and what was collected from some of its fields;
* `agrees_of_readFields` — the fields of an object may be read in any order;
* `ofJson_toJson` — the value of an object without parts of the envelope in its body is read back;
* `value_round_trip` — objects and values are the same thing in two forms.

In a value the fields of an object stand in the order of their names, so that the envelope does not
come first as it does in a text.
-/

/-- The names of the fields that make the envelope. -/
def envelope : List String := ["apiVersion", "kind", "metadata"]

theorem find?_members_of_other {name : String} (h : name ∉ envelope) :
    members.find? (·.name == name) = none := by
  simp only [envelope, List.mem_cons, List.not_mem_nil, or_false, not_or] at h
  simp [members, Json.Member.needed, Json.Member.optional, Ne.symm h.1, Ne.symm h.2.1,
    Ne.symm h.2.2]

/-! ### The fields of a value -/

/-- A field of the value of an object is one of the body, or else of the envelope. -/
theorem find?_toFields (object : Object) (name : String) :
    Entries.find? name (Entries.ofList object.toFields) =
      (object.body.find? name).or (Entries.find? name
        [("metadata", object.metadata.toJson), ("kind", .string object.kind),
          ("apiVersion", .string object.apiVersion)]) := by
  have hbody : Entries.find? name object.body.entries.reverse = object.body.find? name := by
    rw [← Entries.find?_ofList, Entries.ofList_eq_self object.body.sorted]
    rfl
  rw [Entries.find?_ofList, toFields, List.reverse_append, Entries.find?_append, hbody]
  rfl

/-- What is no part of the envelope is written as it stands in the body. -/
theorem field?_toJson (object : Object) {name : String} (h : name ∉ envelope) :
    object.toJson.field? name = object.body.find? name := by
  simp only [envelope, List.mem_cons, List.not_mem_nil, or_false, not_or] at h
  have hfield : object.toJson.field? name = _ := find?_toFields object name
  rw [hfield]
  simp [Entries.find?, h]

/-! ### Where the other fields go -/

/-- Any other field that is read goes into the body, in order. -/
theorem eq_withField_of_bodyField {name : String} {value : Json} {store : Object → Object}
    (h : bodyField name none (.ofJson value) = .ok store) :
    store = fun object => object.withField name value.sorted := by
  obtain ⟨read, hread, rfl⟩ := map_eq_ok.mp h
  rw [Json.any_ofJson] at hread
  obtain rfl := Except.ok.inj hread
  rfl

/-- **Other fields.**  Of every name that is no part of the envelope the body holds, in order, the last
    field that was read, or what it held before. -/
theorem body_of_readFields {fields : List (String × Json)} {seen seen' : List String}
    {before after : Object} {name : String} (other : name ∉ envelope)
    (h : Json.readFields members bodyField none seen before (Json.Document.ofFields fields) =
      .ok (seen', after)) :
    after.body.find? name =
      (Entries.find? name (Json.sortedFields fields).reverse).or (before.body.find? name) := by
  induction fields generalizing seen before with
  | nil =>
    cases h
    rfl
  | cons field rest ih =>
    obtain ⟨label, value⟩ := field
    obtain ⟨_, hlabel, hread⟩ := bind_eq_ok.mp h
    obtain rfl := Except.ok.inj hlabel
    rw [Json.sortedFields, List.reverse_cons, Entries.find?_append, Option.or_assoc]
    cases hfind : members.find? (·.name == label) with
    | none =>
      simp only [hfind] at hread
      obtain ⟨store, hstore, hrest⟩ := bind_eq_ok.mp hread
      obtain rfl := eq_withField_of_bodyField hstore
      have hstored : ((before.withField label value.sorted).body.find? name) =
          if name = label then some value.sorted else before.body.find? name :=
        Table.find?_insert before.body label name value.sorted
      rw [ih hrest, hstored]
      congr 1
      by_cases hname : name = label
      · simp [hname, Entries.find?, Std.ReflCmp.compare_self]
      · have hne : compare name label ≠ .eq :=
          fun heq => hname (Std.LawfulEqOrd.eq_of_compare heq)
        simp [hname, Entries.find?, hne]
    | some member =>
      simp only [hfind] at hread
      split at hread
      · cases hread
      · obtain ⟨store, hstore, hrest⟩ := bind_eq_ok.mp hread
        have hname : name ≠ label := by
          rintro rfl
          rw [find?_members_of_other other] at hfind
          cases hfind
        have hne : compare name label ≠ .eq :=
          fun heq => hname (Std.LawfulEqOrd.eq_of_compare heq)
        rw [ih hrest, body_of_member (List.mem_of_find?_eq_some hfind) hstore]
        simp [Entries.find?, hne]

theorem ofJson_eq_ok {value : Json} {object : Object} :
    ofJson value = .ok object ↔ decoder none (.ofJson value) = .ok object := by
  rw [ofJson, mapError_eq_ok, Json.ofValue]
  cases decoder none (.ofJson value) <;> simp

/-- The value of an object that was read has the fields that its body was collected from. -/
theorem sorted_field?_of_ofJson {value : Json} {object : Object} (h : ofJson value = .ok object)
    {name : String} (other : name ∉ envelope) :
    object.body.find? name = value.sorted.field? name := by
  have hvalue := ofJson_eq_ok.mp h
  cases value with
  | object fields =>
    obtain ⟨room, seen, hroom, hfields⟩ := Json.readFields_of_recordOfFields hvalue
    obtain rfl := Except.ok.inj hroom
    have hfield : (Json.object fields).sorted.field? name =
        Entries.find? name (Entries.ofList (Json.sortedFields fields)) := rfl
    rw [body_of_readFields other hfields, hfield, Entries.find?_ofList]
    exact Option.or_none
  | null | bool | number | string | array => cases hvalue

/-! ### Fields in any order -/

/-- What a field tells of an object: a part of the envelope, or what the body holds under its name, in
    order. -/
inductive Tells (object : Object) : String → Json → Prop
  | apiVersion : Tells object "apiVersion" (.string object.apiVersion)
  | kind : Tells object "kind" (.string object.kind)
  | metadata : Tells object "metadata" object.metadata.toJson
  | other {name : String} {value : Json} (other : name ∉ envelope)
      (found : object.body.find? name = some value.sorted) : Tells object name value

/-- What was collected agrees with an object in the parts that have the given names, and has no other
    part in its body; of the names that make the envelope, the given ones were seen. -/
structure Agrees (object : Object) (names seen : List String) (collected : Object) : Prop where
  seen : ∀ name ∈ envelope, name ∈ seen ↔ name ∈ names
  apiVersion : "apiVersion" ∈ names → collected.apiVersion = object.apiVersion
  kind : "kind" ∈ names → collected.kind = object.kind
  metadata : "metadata" ∈ names → collected.metadata = object.metadata
  body : ∀ name ∉ envelope,
    collected.body.find? name = if name ∈ names then object.body.find? name else none
  free : ∀ name ∈ envelope, collected.body.find? name = none

/-- Nothing was collected from no fields. -/
theorem Agrees.nil (object : Object) : Agrees object [] [] ⟨"", "", .empty, .empty⟩ := by
  constructor <;> simp

section

variable {object collected : Object} {names seen : List String} {name : String} {value : Json}

/-- A part of the envelope that is put into its place leaves the body as it agrees. -/
theorem Agrees.put (agrees : Agrees object names seen collected) (part : name ∈ envelope)
    {after : Object} (body : after.body = collected.body)
    (apiVersion : "apiVersion" ∈ name :: names → after.apiVersion = object.apiVersion)
    (kind : "kind" ∈ name :: names → after.kind = object.kind)
    (metadata : "metadata" ∈ name :: names → after.metadata = object.metadata) :
    Agrees object (name :: names) (name :: seen) after where
  seen := fun label hlabel => by
    rw [List.mem_cons, List.mem_cons, agrees.seen label hlabel]
  apiVersion := apiVersion
  kind := kind
  metadata := metadata
  body := fun label hlabel => by
    have hne : label ≠ name := by
      rintro rfl
      exact hlabel part
    rw [body, agrees.body label hlabel]
    simp [hne]
  free := fun label hlabel => by rw [body, agrees.free label hlabel]

/-- Another field that is put into the body agrees there. -/
theorem Agrees.putOther (agrees : Agrees object names seen collected) (other : name ∉ envelope)
    {held : Json} (found : object.body.find? name = some held) :
    Agrees object (name :: names) seen (collected.withField name held) := by
  have hne : ∀ label ∈ envelope, label ≠ name := by
    rintro label hlabel rfl
    exact other hlabel
  have hbefore : ∀ label ∈ envelope, label ∈ name :: names ↔ label ∈ names :=
    fun label hlabel => by rw [List.mem_cons, or_iff_right (hne label hlabel)]
  have hbody (label : String) : (collected.withField name held).body.find? label =
      if label = name then some held else collected.body.find? label :=
    Table.find?_insert collected.body name label held
  exact {
    seen := fun label hlabel => (agrees.seen label hlabel).trans (hbefore label hlabel).symm
    apiVersion := fun h => agrees.apiVersion ((hbefore _ (by simp [envelope])).mp h)
    kind := fun h => agrees.kind ((hbefore _ (by simp [envelope])).mp h)
    metadata := fun h => agrees.metadata ((hbefore _ (by simp [envelope])).mp h)
    body := fun label hlabel => by
      rw [hbody]
      by_cases hname : label = name
      · simp [hname, found]
      · simp [hname, agrees.body label hlabel]
    free := fun label hlabel => by rw [hbody, if_neg (hne label hlabel), agrees.free label hlabel] }

/-- **Step.**  A field that tells of the object is read, and then its part agrees as well. -/
theorem Agrees.step (agrees : Agrees object names seen collected) (tells : Tells object name value)
    (fresh : name ∉ names) (rest : List (String × Json)) :
    ∃ seen' collected', Agrees object (name :: names) seen' collected' ∧
      Json.readFields members bodyField none seen collected
          (Json.Document.ofFields ((name, value) :: rest)) =
        Json.readFields members bodyField none seen' collected' (Json.Document.ofFields rest) := by
  -- A part of the envelope is read once.
  have hpart {after : Object} (hname : name ∈ envelope)
      (collects : Json.Collects members none [(name, value)] collected after) :
      Json.readFields members bodyField none seen collected
          (Json.Document.ofFields ((name, value) :: rest)) =
        Json.readFields members bodyField none (name :: seen) after (Json.Document.ofFields rest) := by
    have hunseen : ∀ label ∈ [(name, value)].map (·.1), label ∉ seen := by
      simpa [agrees.seen name hname] using fresh
    exact Json.readFields_of_collects collects (by simp) hunseen rest
  cases tells with
  | apiVersion =>
    have hin : "apiVersion" ∈ envelope := by simp [envelope]
    exact ⟨_, { collected with apiVersion := object.apiVersion },
      agrees.put hin rfl (fun _ => rfl) (by simpa using agrees.kind)
        (by simpa using agrees.metadata),
      hpart hin (.cons rfl rfl (.nil _))⟩
  | kind =>
    have hin : "kind" ∈ envelope := by simp [envelope]
    exact ⟨_, { collected with kind := object.kind },
      agrees.put hin rfl (by simpa using agrees.apiVersion) (fun _ => rfl)
        (by simpa using agrees.metadata),
      hpart hin (.cons rfl rfl (.nil _))⟩
  | metadata =>
    have hin : "metadata" ∈ envelope := by simp [envelope]
    exact ⟨_, { collected with metadata := object.metadata },
      agrees.put hin rfl (by simpa using agrees.apiVersion) (by simpa using agrees.kind)
        (fun _ => rfl),
      hpart hin (.cons rfl (put_metadata object.metadata rfl) (.nil _))⟩
  | other other found =>
    refine ⟨seen, collected.withField name value.sorted, agrees.putOther other found, ?_⟩
    have hread : bodyField name none (.ofJson value) =
        .ok fun object => object.withField name value.sorted := by
      rw [bodyField, Json.any_ofJson]
      rfl
    simp only [Json.Document.ofFields, Json.readFields, bind, Except.bind,
      find?_members_of_other other, hread]

end

/-- **Run.**  Fields that tell of an object, one for a name, are read in any order, and what was
    collected from them agrees with the object. -/
theorem agrees_of_readFields {object : Object} {fields : List (String × Json)}
    (tells : ∀ field ∈ fields, Tells object field.1 field.2) (distinct : (fields.map (·.1)).Nodup)
    {names seen : List String} {collected : Object} (fresh : ∀ name ∈ fields.map (·.1), name ∉ names)
    (agrees : Agrees object names seen collected) :
    ∃ seen' last, Agrees object ((fields.map (·.1)).reverse ++ names) seen' last ∧
      Json.readFields members bodyField none seen collected (Json.Document.ofFields fields) =
        .ok (seen', last) := by
  induction fields generalizing names seen collected with
  | nil => exact ⟨seen, collected, agrees, rfl⟩
  | cons field rest ih =>
    obtain ⟨hname, hdistinct⟩ := List.nodup_cons.mp distinct
    obtain ⟨seen₁, next, hnext, hread⟩ := agrees.step (tells field List.mem_cons_self)
      (fresh field.1 List.mem_cons_self) rest
    -- One more name was read, which no field of the rest has.
    have hfresh : ∀ name ∈ rest.map (·.1), name ∉ field.1 :: names := by
      intro name hrest hmem
      rcases List.mem_cons.mp hmem with rfl | hbefore
      · exact hname hrest
      · exact fresh name (.tail _ hrest) hbefore
    obtain ⟨seen', last, hlast, hrun⟩ :=
      ih (fun other hother => tells other (.tail _ hother)) hdistinct hfresh hnext
    refine ⟨seen', last, ?_, hread.trans hrun⟩
    rwa [List.map_cons, List.reverse_cons, List.append_assoc, List.singleton_append]

/-! ### Objects that are read back -/

/-- The object with the fields of every value in its body in the order of their names. -/
def sorted (object : Object) : Object := { object with body := object.body.map Json.sorted }

/-- Whether no part of the envelope is repeated in the body. -/
def Free (object : Object) : Prop := ∀ name ∈ envelope, object.body.find? name = none

/-- Every field of the value of an object tells of the object. -/
theorem tells_of_toFields {object : Object} (free : object.Free) {field : String × Json}
    (h : field ∈ object.toFields) : Tells object.sorted field.1 field.2 := by
  rcases List.mem_append.mp h with henvelope | hbody
  · simp only [List.mem_cons, List.not_mem_nil, or_false] at henvelope
    rcases henvelope with rfl | rfl | rfl
    · exact .apiVersion
    · exact .kind
    · exact .metadata
  · have hfound : object.body.find? field.1 = some field.2 := Table.find?_eq_some_iff.mpr hbody
    refine .other (fun hname => ?_) ?_
    · rw [free _ hname] at hfound
      cases hfound
    · rw [sorted, Table.find?_map, hfound]
      rfl

/-- What agrees with an object in every part is the object. -/
theorem Agrees.eq {object collected : Object} {names seen : List String}
    (agrees : Agrees object names seen collected) (free : object.Free)
    (whole : ∀ name ∈ envelope, name ∈ names)
    (all : ∀ name held, object.body.find? name = some held → name ∈ names) :
    collected = object := by
  have hbody : collected.body = object.body := by
    apply Table.ext_find?
    intro name
    by_cases hname : name ∈ envelope
    · rw [agrees.free name hname, free name hname]
    · rw [agrees.body name hname]
      split
      · rfl
      · rename_i hmissing
        cases hfind : object.body.find? name with
        | none => rfl
        | some held => exact absurd (all name held hfind) hmissing
  have happs := agrees.apiVersion (whole _ (by simp [envelope]))
  have hkind := agrees.kind (whole _ (by simp [envelope]))
  have hmetadata := agrees.metadata (whole _ (by simp [envelope]))
  obtain ⟨apiVersion, kind, metadata, body⟩ := collected
  cases happs
  cases hkind
  cases hmetadata
  cases hbody
  rfl

/-- The value of an object that repeats no part of the envelope is read as the object, in order. -/
theorem ofJson_toJson {object : Object} (free : object.Free) :
    ofJson object.toJson = .ok object.sorted := by
  -- Fields in order have names of their own.
  have hsorted := Entries.sorted_ofList object.toFields
  have hdistinct : ((Entries.ofList object.toFields).map (·.1)).Nodup := by
    refine List.pairwise_map.mpr (hsorted.imp fun {first second} hlt heq => ?_)
    have hself : compare first.1 second.1 = .eq := by rw [heq]; exact Std.ReflCmp.compare_self
    rw [hself] at hlt
    cases hlt
  have htells : ∀ field ∈ Entries.ofList object.toFields,
      Tells object.sorted field.1 field.2 :=
    fun field hfield => tells_of_toFields free (Entries.mem_ofList hfield)
  obtain ⟨seen, last, hagrees, hread⟩ := agrees_of_readFields htells hdistinct
    (fun _ _ => List.not_mem_nil) (Agrees.nil object.sorted)
  -- Every name of the object was read: those of the envelope, and those of the body.
  have hnames {name : String} {held : Json}
      (hfind : Entries.find? name (Entries.ofList object.toFields) = some held) :
      name ∈ ((Entries.ofList object.toFields).map (·.1)).reverse ++ [] := by
    simpa using ⟨held, Entries.mem_of_find? hfind⟩
  have hwhole : ∀ name ∈ envelope,
      name ∈ ((Entries.ofList object.toFields).map (·.1)).reverse ++ [] := by
    intro name hname
    have hfind := find?_toFields object name
    rw [free name hname, Option.none_or] at hfind
    simp only [envelope, List.mem_cons, List.not_mem_nil, or_false] at hname
    rcases hname with rfl | rfl | rfl <;> exact hnames hfind
  have hlast : last = object.sorted := by
    refine hagrees.eq (fun name hname => ?_) hwhole fun name held hheld => ?_
    · rw [sorted, Table.find?_map, free name hname]
      rfl
    · rw [sorted, Table.find?_map] at hheld
      obtain ⟨value, hvalue, -⟩ := Option.map_eq_some_iff.mp hheld
      have hfind := find?_toFields object name
      rw [hvalue, Option.some_or] at hfind
      exact hnames hfind
  have hcomplete : members.all (fun member =>
      !member.required || seen.contains member.name) = true := by
    rw [List.all_eq_true]
    intro member hmember
    have hname : member.name ∈ envelope := List.mem_map_of_mem hmember
    have hseen := (hagrees.seen member.name hname).mpr (hwhole member.name hname)
    simp [hseen]
  subst hlast
  have hdecoded : decoder none (.ofJson object.toJson) = .ok object.sorted := by
    simp only [decoder, toJson, Json.ofFields, Json.Document.ofJson, Json.recordOfFields,
      Json.Room.enter, bind, Except.bind, hread, Json.closed, hcomplete]
    rfl
  exact ofJson_eq_ok.mpr hdecoded

/-- An object whose body is in order is the object in order. -/
theorem sorted_eq_self {object : Object} (h : ∀ field ∈ object.body.entries, field.2.Normal) :
    object.sorted = object := by
  have hbody : object.body.map Json.sorted = object.body := by
    apply Table.ext
    show object.body.entries.map (fun field => (field.1, field.2.sorted)) = object.body.entries
    refine (List.map_congr_left fun field hfield => ?_).trans (List.map_id _)
    rw [(h field hfield).sorted_eq]
    rfl
  rw [sorted, hbody]

theorem Proper.free_envelope {object : Object} (h : object.Proper) : object.Free := by
  intro name hname
  cases hfind : object.body.find? name with
  | none => rfl
  | some held => exact absurd hname (h.free _ (Table.find?_eq_some_iff.mp hfind))

/-- A proper object is read back. -/
theorem Proper.ofJson_toJson {object : Object} (h : object.Proper) :
    ofJson object.toJson = .ok object := by
  rw [Object.ofJson_toJson h.free_envelope, sorted_eq_self h.normal]

/-- **Objects and values.**  An object that was read from a value is read back from its own value, which
    has every field of the first value that is no part of the envelope, as it was.  The same goes for any
    object whose body repeats no part of the envelope, with the fields of every value in order. -/
theorem value_round_trip (value : Json) (object : Object) :
    (ofJson value = .ok object →
      ofJson object.toJson = .ok object ∧
        (∀ name ∉ ["apiVersion", "kind", "metadata"],
          object.toJson.field? name = value.sorted.field? name) ∧
        (value.Normal → ∀ name ∉ ["apiVersion", "kind", "metadata"],
          object.toJson.field? name = value.field? name)) ∧
      ((∀ name ∈ ["apiVersion", "kind", "metadata"], object.body.find? name = none) →
        ofJson object.toJson = .ok { object with body := object.body.map Json.sorted } ∧
          ((∀ field ∈ object.body.entries, field.2.Normal) →
            ofJson object.toJson = .ok object)) := by
  constructor
  · intro h
    have hproper : object.Proper := (holds_of_decoder rfl (ofJson_eq_ok.mp h)).proper
    have hfields : ∀ name ∉ envelope, object.toJson.field? name = value.sorted.field? name :=
      fun name hname => (field?_toJson object hname).trans (sorted_field?_of_ofJson h hname)
    refine ⟨hproper.ofJson_toJson, hfields, fun hnormal name hname => ?_⟩
    rw [hfields name hname, hnormal.sorted_eq]
  · intro free
    refine ⟨ofJson_toJson free, fun hnormal => ?_⟩
    rw [ofJson_toJson free, sorted_eq_self hnormal]

/-- An object with its metadata in an array, and with nothing as its data, is read back. -/
theorem listed_metadata_read_back :
    ofJson (.object [("apiVersion", .string "v1"), ("data", .null), ("kind", .string "Secret"),
        ("metadata", .array [.string "web"])]) =
      .ok ⟨"v1", "Secret", { Metadata.empty with name := ⟨"web"⟩ }, .ofList [("data", .null)]⟩ ∧
    ofJson (toJson ⟨"v1", "Secret", { Metadata.empty with name := ⟨"web"⟩ },
        .ofList [("data", .null)]⟩) =
      .ok ⟨"v1", "Secret", { Metadata.empty with name := ⟨"web"⟩ }, .ofList [("data", .null)]⟩ := by
  have hread : ofJson (.object [("apiVersion", .string "v1"), ("data", .null),
        ("kind", .string "Secret"), ("metadata", .array [.string "web"])]) =
      .ok ⟨"v1", "Secret", { Metadata.empty with name := ⟨"web"⟩ }, .ofList [("data", .null)]⟩ := by
    rfl
  exact ⟨hread, ((value_round_trip _ _).1 hread).1⟩

end Reconciliation.Object
