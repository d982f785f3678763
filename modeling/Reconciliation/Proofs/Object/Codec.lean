import Reconciliation.Object.Codec
import Reconciliation.Proofs.Json.Depth
import Reconciliation.Proofs.Json.Record

namespace Reconciliation

/-!
# Objects that are written and read back

* `Json.Collects` — what a record makes of the fields that were written for it;
* `Json.recordOfFields_eq_ok` — a record whose fields are written once each is read back;
* `Json.list_ofJson`, `Json.table_ofTexts` — lists and tables are read back;
* `OwnerReference.decoder_toJson`, `Metadata.decoder_toJson` — references and metadata are read back;
* `Object.Proper` — an object whose body is normal and repeats no part of the envelope;
* `Object.depth` — how deep the text of an object is nested;
* `Object.decoder_toFields` — a proper object is read back exactly if there is room for it;
* `Object.holds_of_decoder` — whatever is read is proper and fits.
-/

namespace Json

/-! ### Records, field by field -/

section

variable {α : Type} {members : List (Member α)} {other : Other α} {room : Room}

/-- Fields that are members, and what their values make of what was collected before. -/
inductive Collects (members : List (Member α)) (room : Room) :
    List (String × Json) → α → α → Prop
  | nil (collected : α) : Collects members room [] collected collected
  | cons {name : String} {value : Json} {fields : List (String × Json)} {before after : α}
      {member : Member α} {store : α → α} (found : members.find? (·.name == name) = some member)
      (reads : member.read room (Document.ofJson value) = .ok store)
      (rest : Collects members room fields (store before) after) :
      Collects members room ((name, value) :: fields) before after

theorem Collects.append {first second : List (String × Json)} {before between after : α}
    (hfirst : Collects members room first before between)
    (hsecond : Collects members room second between after) :
    Collects members room (first ++ second) before after := by
  induction hfirst with
  | nil => exact hsecond
  | cons found reads _ ih => exact .cons found reads (ih hsecond)

/-- A field that is written only if it has a value adds what is decoded from it, or nothing. -/
theorem Collects.optional {β : Type} {name : String} {decode : Decoder β} {put : β → α → α}
    (found : members.find? (·.name == name) = some (.optional name decode put)) {content : β}
    {written : Option Json} {before after : α} (puts : put content before = after)
    (skips : written = none → before = after)
    (reads : ∀ value, written = some value → decode room (Document.ofJson value) = .ok content) :
    Collects members room (optionalField name written) before after := by
  cases written with
  | none =>
    rw [skips rfl]
    exact .nil after
  | some value =>
    rw [← puts]
    refine .cons found ?_ (.nil _)
    show (decode room (Document.ofJson value)).map put = _
    rw [reads value rfl]
    rfl

/-- Fields of different names are read one after the other. -/
theorem readFields_of_collects {fields : List (String × Json)} {before after : α}
    (collects : Collects members room fields before after) (distinct : (fields.map (·.1)).Nodup)
    {seen : List String} (fresh : ∀ name ∈ fields.map (·.1), name ∉ seen)
    (rest : List (String × Json)) :
    readFields members other room seen before (Document.ofFields (fields ++ rest)) =
      readFields members other room ((fields.map (·.1)).reverse ++ seen) after
        (Document.ofFields rest) := by
  induction collects generalizing seen with
  | nil => rfl
  | @cons name value fields before after member store found reads _ ih =>
    obtain ⟨hname, hdistinct⟩ := List.nodup_cons.mp distinct
    have hseen : seen.contains name = false := by
      simpa using fresh name List.mem_cons_self
    have hfresh : ∀ label ∈ fields.map (·.1), label ∉ name :: seen := by
      intro label hlabel hmem
      rcases List.mem_cons.mp hmem with rfl | hbefore
      · exact hname hlabel
      · exact fresh label (.tail _ hlabel) hbefore
    have hrest := ih hdistinct hfresh
    rw [List.map_cons, List.reverse_cons, List.append_assoc, List.singleton_append, ← hrest]
    simp only [List.cons_append, Document.ofFields, readFields, bind, Except.bind, found, hseen, reads]
    rfl

/-- A record is read back if its fields have different names and no required member is left out. -/
theorem recordOfFields_eq_ok {depth : Nat} {initial value : α} {fields : List (String × Json)}
    (fits : room.fits (depth + 1) = true)
    (collects : ∀ inner : Room, inner.fits depth = true →
      Collects members inner fields initial value)
    (distinct : (fields.map (·.1)).Nodup)
    (complete : ∀ member ∈ members, member.required = true → member.name ∈ fields.map (·.1)) :
    recordOfFields members other initial room (Document.ofJson (.object fields)) = .ok value := by
  obtain ⟨inner, hinner, hfits⟩ := Room.fits_succ_iff.mp fits
  have hread : readFields members other inner [] initial (Document.ofFields fields) =
      .ok ((fields.map (·.1)).reverse ++ [], value) := by
    have hfields : readFields members other inner [] initial (Document.ofFields (fields ++ [])) =
        readFields members other inner ((fields.map (·.1)).reverse ++ []) value
          (Document.ofFields []) :=
      readFields_of_collects (collects inner hfits) distinct (fun _ _ => List.not_mem_nil) []
    rwa [List.append_nil] at hfields
  have hall : members.all (fun member =>
      !member.required ||
        ((fields.map fun field : String × Json => field.1).reverse ++ []).contains member.name) =
      true := by
    rw [List.all_eq_true]
    intro member hmem
    cases hrequired : member.required with
    | false => rfl
    | true => simpa using complete member hmem hrequired
  simp only [Document.ofJson, recordOfFields, hinner, bind, Except.bind, hread, closed, hall]
  rfl

end

/-! ### Lists and tables -/

/-- A list is read back if every item is, and refused if one is not. -/
theorem list_ofJson {α : Type} {decode : Decoder α} {encode : α → Json} (fit : α → Bool)
    {room inner : Room} (opens : room.enter = .ok inner) {values : List α}
    (h : ∀ value ∈ values, decode inner (Document.ofJson (encode value)) =
      if fit value then .ok value else .error .malformed) :
    list decode room (Document.ofJson (.array (values.map encode))) =
      if values.all fit then .ok values else .error .malformed := by
  have hitems : (Document.ofItems (values.map encode)).mapM (decode inner) =
      if values.all fit then .ok values else .error .malformed := by
    clear opens
    induction values with
    | nil => rfl
    | cons value rest ih =>
      have hrest := ih fun other hother => h other (.tail _ hother)
      rw [List.map_cons, Document.ofItems, List.mapM_cons, h value List.mem_cons_self, hrest,
        List.all_cons]
      cases fit value <;> cases rest.all fit <;> rfl
  simp only [Document.ofJson, list, opens, bind, Except.bind, hitems]
  cases values.all fit <;> rfl

/-- A table of texts is read back. -/
theorem table_ofTexts (texts : Table String String) {room : Room} (fits : room.fits 1 = true) :
    table text room (Document.ofJson (ofTexts texts)) = .ok texts := by
  obtain ⟨inner, hinner, _⟩ := Room.fits_succ_iff.mp fits
  have hentries : ∀ entries : List (String × String),
      (Document.ofFields (entries.map fun entry => (entry.1, .string entry.2))).mapM
        (fun field => do
          let name ← field.1
          return (name, ← text inner field.2)) = (.ok entries : Except Category _) := by
    intro entries
    induction entries with
    | nil => rfl
    | cons entry rest ih =>
      rw [List.map_cons, Document.ofFields, List.mapM_cons, ih]
      rfl
  have htexts : (texts.map Json.string).entries =
      texts.entries.map fun entry => (entry.1, .string entry.2) := rfl
  have hmap := hentries texts.entries
  simp only [bind, Except.bind] at hmap
  simp only [ofTexts, Document.ofJson, table, hinner, bind, Except.bind, htexts]
  rw [hmap]
  exact congrArg Except.ok (Table.ofList_entries texts)

end Json

/-! ### References and metadata -/

theorem optionalField_sublist (name : String) (value : Option Json) :
    ((optionalField name value).map (·.1)).Sublist [name] := by
  cases value with
  | none => exact List.nil_sublist _
  | some value => exact List.Sublist.refl _

namespace OwnerReference

/-- A reference is read back. -/
theorem decoder_toJson (reference : OwnerReference) {room : Json.Room}
    (fits : room.fits 1 = true) :
    decoder room (.ofJson reference.toJson) = .ok reference := by
  apply Json.recordOfFields_eq_ok fits
  · intro inner _
    have hneeded : Json.Collects members inner
        [("apiVersion", .string reference.apiVersion), ("kind", .string reference.kind),
          ("name", .string reference.name.text), ("uid", .string reference.uid.text)]
        ⟨"", "", ⟨""⟩, ⟨""⟩, none, none⟩
        ⟨reference.apiVersion, reference.kind, reference.name, reference.uid, none, none⟩ :=
      .cons rfl rfl (.cons rfl rfl (.cons rfl rfl (.cons rfl rfl (.nil _))))
    have hcontroller : Json.Collects members inner
        (optionalField "controller" (reference.controller.map .bool))
        ⟨reference.apiVersion, reference.kind, reference.name, reference.uid, none, none⟩
        { reference with blockOwnerDeletion := none } := by
      cases reference.controller with
      | none => exact .nil _
      | some value => exact .cons rfl rfl (.nil _)
    have hblock : Json.Collects members inner
        (optionalField "blockOwnerDeletion" (reference.blockOwnerDeletion.map .bool))
        { reference with blockOwnerDeletion := none } reference := by
      obtain ⟨apiVersion, kind, name, uid, controller, block⟩ := reference
      cases block with
      | none => exact .nil _
      | some value => exact .cons rfl rfl (.nil _)
    exact (hneeded.append hcontroller).append hblock
  · simp only [List.map_append]
    refine List.Sublist.nodup (List.Sublist.append (List.Sublist.append (List.Sublist.refl _)
      (optionalField_sublist _ _)) (optionalField_sublist _ _)) ?_
    simp
  · simp [members, Json.Member.needed, Json.Member.optional]

end OwnerReference

theorem Table.eq_empty_of_isEmpty {κ α : Type} [Ord κ] {t : Table κ α} (h : t.isEmpty = true) :
    t = .empty := by
  apply Table.ext
  exact List.isEmpty_iff.mp h

namespace Metadata

/-- Texts that are written only if there are any are read back. -/
theorem collects_texts {name : String} {texts : Table String String} {inner : Json.Room}
    (fits : inner.fits 1 = true) {put : Table String String → Metadata → Metadata}
    {before after : Metadata}
    (found : members.find? (·.name == name) = some (.optional name (Json.table Json.text) put))
    (empty : put .empty before = before) (puts : put texts before = after) :
    Json.Collects members inner
      (optionalField name (if texts.isEmpty then none else some (Json.ofTexts texts))) before after := by
  apply Json.Collects.optional found puts
  · intro hnone
    have hempty : texts.isEmpty = true := by simpa using hnone
    rw [Table.eq_empty_of_isEmpty hempty] at puts
    exact empty.symm.trans puts
  · intro value hvalue
    split at hvalue
    · cases hvalue
    · cases hvalue
      exact Json.table_ofTexts texts fits

/-- Metadata is read back. -/
theorem decoder_toJson (m : Metadata) {room : Json.Room} (fits : room.fits 3 = true) :
    decoder room (.ofJson m.toJson) = .ok m := by
  apply Json.recordOfFields_eq_ok fits
  · intro inner hinner
    have hone : inner.fits 1 = true := Json.Room.fits_mono hinner (by omega)
    -- Every field adds its part, in the order in which they are written.
    have hname : Json.Collects members inner [("name", .string m.name.text)] .empty
        ⟨m.name, none, none, none, .empty, .empty, [], none, none⟩ :=
      .cons rfl rfl (.nil _)
    have hscope : Json.Collects members inner
        (optionalField "namespace" (m.scope.map fun scope => .string scope.text))
        ⟨m.name, none, none, none, .empty, .empty, [], none, none⟩
        ⟨m.name, m.scope, none, none, .empty, .empty, [], none, none⟩ := by
      cases m.scope with
      | none => exact .nil _
      | some scope => exact .cons rfl rfl (.nil _)
    have hversion : Json.Collects members inner
        (optionalField "resourceVersion" (m.version.map fun version => .string version.text))
        ⟨m.name, m.scope, none, none, .empty, .empty, [], none, none⟩
        ⟨m.name, m.scope, m.version, none, .empty, .empty, [], none, none⟩ := by
      cases m.version with
      | none => exact .nil _
      | some version => exact .cons rfl rfl (.nil _)
    have huid : Json.Collects members inner
        (optionalField "uid" (m.uid.map fun uid => .string uid.text))
        ⟨m.name, m.scope, m.version, none, .empty, .empty, [], none, none⟩
        ⟨m.name, m.scope, m.version, m.uid, .empty, .empty, [], none, none⟩ := by
      cases m.uid with
      | none => exact .nil _
      | some uid => exact .cons rfl rfl (.nil _)
    have hlabels : Json.Collects members inner
        (optionalField "labels" (if m.labels.isEmpty then none else some (Json.ofTexts m.labels)))
        ⟨m.name, m.scope, m.version, m.uid, .empty, .empty, [], none, none⟩
        ⟨m.name, m.scope, m.version, m.uid, m.labels, .empty, [], none, none⟩ :=
      collects_texts hone rfl rfl rfl
    have hannotations : Json.Collects members inner
        (optionalField "annotations"
          (if m.annotations.isEmpty then none else some (Json.ofTexts m.annotations)))
        ⟨m.name, m.scope, m.version, m.uid, m.labels, .empty, [], none, none⟩
        ⟨m.name, m.scope, m.version, m.uid, m.labels, m.annotations, [], none, none⟩ :=
      collects_texts hone rfl rfl rfl
    have howners : Json.Collects members inner
        (optionalField "ownerReferences"
          (if m.owners.isEmpty then none else some (.array (m.owners.map OwnerReference.toJson))))
        ⟨m.name, m.scope, m.version, m.uid, m.labels, m.annotations, [], none, none⟩
        ⟨m.name, m.scope, m.version, m.uid, m.labels, m.annotations, m.owners, none, none⟩ := by
      refine Json.Collects.optional rfl rfl ?_ ?_
      · intro hnone
        have hempty : m.owners = [] := by simpa using hnone
        rw [hempty]
      · intro value hvalue
        split at hvalue
        · cases hvalue
        · cases hvalue
          obtain ⟨inside, hinside, hfits⟩ := Json.Room.fits_succ_iff.mp hinner
          rw [Json.list_ofJson (fun _ => true) hinside fun reference _ =>
            reference.decoder_toJson hfits]
          simp
    have hcreated : Json.Collects members inner
        (optionalField "creationTimestamp" (m.created.map .string))
        ⟨m.name, m.scope, m.version, m.uid, m.labels, m.annotations, m.owners, none, none⟩
        ⟨m.name, m.scope, m.version, m.uid, m.labels, m.annotations, m.owners, m.created, none⟩ := by
      cases m.created with
      | none => exact .nil _
      | some created => exact .cons rfl rfl (.nil _)
    have hdeleted : Json.Collects members inner
        (optionalField "deletionTimestamp" (m.deleted.map .string))
        ⟨m.name, m.scope, m.version, m.uid, m.labels, m.annotations, m.owners, m.created, none⟩
        ⟨m.name, m.scope, m.version, m.uid, m.labels, m.annotations, m.owners, m.created,
          m.deleted⟩ := by
      cases m.deleted with
      | none => exact .nil _
      | some deleted => exact .cons rfl rfl (.nil _)
    exact (((((((hname.append hscope).append hversion).append huid).append hlabels).append
      hannotations).append howners).append hcreated).append hdeleted
  · simp only [List.map_append]
    have hoptional := optionalField_sublist
    refine List.Sublist.nodup (((((((((List.Sublist.refl _).append (hoptional _ _)).append
      (hoptional _ _)).append (hoptional _ _)).append (hoptional _ _)).append
      (hoptional _ _)).append (hoptional _ _)).append (hoptional _ _)).append (hoptional _ _)) ?_
    simp
  · simp [members, Json.Member.needed, Json.Member.optional]

end Metadata

/-! ### Depth of references and metadata -/

namespace Json

theorem depthFields_append (first second : List (String × Json)) :
    depthFields (first ++ second) = max (depthFields first) (depthFields second) := by
  induction first with
  | nil => simp [depthFields]
  | cons field rest ih => rw [List.cons_append, depthFields, depthFields, ih, Nat.max_assoc]

theorem depthFields_optional_le {name : String} {written : Option Json} {n : Nat}
    (h : ∀ value, written = some value → value.depth ≤ n) :
    depthFields (optionalField name written) ≤ n := by
  cases written with
  | none => exact Nat.zero_le n
  | some value => simpa [optionalField, depthFields] using h value rfl

theorem depth_of_map_string {β : Type} {unwrap : β → String} {content : Option β} {value : Json}
    (h : (content.map fun content => Json.string (unwrap content)) = some value) :
    value.depth = 0 := by
  obtain ⟨_, _, rfl⟩ := Option.map_eq_some_iff.mp h
  rfl

theorem depth_ofTexts (texts : Table String String) : (ofTexts texts).depth = 1 := by
  have hentries : ∀ entries : List (String × String),
      depthFields (entries.map fun entry => (entry.1, Json.string entry.2)) = 0 := by
    intro entries
    induction entries with
    | nil => rfl
    | cons entry rest ih => rw [List.map_cons, depthFields, ih]; rfl
  exact congrArg Nat.succ (hentries texts.entries)

end Json

theorem OwnerReference.depth_toJson (reference : OwnerReference) : reference.toJson.depth = 1 := by
  obtain ⟨apiVersion, kind, name, uid, controller, block⟩ := reference
  cases controller <;> cases block <;> rfl

/-- Metadata is never deep. -/
theorem Metadata.depth_toJson_le (m : Metadata) : m.toJson.depth ≤ 3 := by
  have htext : ∀ {β : Type} {unwrap : β → String} {content : Option β} {name : String},
      Json.depthFields (optionalField name
        (content.map fun content => Json.string (unwrap content))) ≤ 2 := by
    intro β unwrap content name
    apply Json.depthFields_optional_le
    intro value hvalue
    rw [Json.depth_of_map_string hvalue]
    omega
  have htexts : ∀ (texts : Table String String) (name : String),
      Json.depthFields (optionalField name
        (if texts.isEmpty then none else some (Json.ofTexts texts))) ≤ 2 := by
    intro texts name
    apply Json.depthFields_optional_le
    intro value hvalue
    split at hvalue
    · cases hvalue
    · cases hvalue
      rw [Json.depth_ofTexts]
      omega
  have howners : Json.depthFields (optionalField "ownerReferences"
      (if m.owners.isEmpty then none
        else some (.array (m.owners.map OwnerReference.toJson)))) ≤ 2 := by
    apply Json.depthFields_optional_le
    intro value hvalue
    split at hvalue
    · cases hvalue
    · cases hvalue
      have hitems : Json.depthItems (m.owners.map OwnerReference.toJson) ≤ 1 := by
        induction m.owners with
        | nil => exact Nat.zero_le 1
        | cons reference rest ih =>
          rw [List.map_cons, Json.depthItems, reference.depth_toJson]
          omega
      exact Nat.succ_le_succ hitems
  have hname : Json.depthFields [("name", .string m.name.text)] ≤ 2 := Nat.zero_le 2
  rw [toJson, Json.depth]
  simp only [Json.depthFields_append]
  apply Nat.succ_le_succ
  simp only [Nat.max_le]
  exact ⟨⟨⟨⟨⟨⟨⟨⟨hname, htext⟩, htext⟩, htext⟩, htexts _ _⟩, htexts _ _⟩, howners⟩, htext⟩, htext⟩

/-! ### Objects -/

namespace Object

/-- An object whose body is normal and repeats no part of the envelope. -/
structure Proper (object : Object) : Prop where
  normal : ∀ field ∈ object.body.entries, field.2.Normal
  free : ∀ field ∈ object.body.entries, field.1 ∉ members.map (·.name)

/-- How deep the text of an object is nested. -/
def depth (object : Object) : Nat := (Json.object object.toFields).depth

/-- The depth of an object is that of its metadata or its body. -/
theorem depth_eq (object : Object) : object.depth =
    max object.metadata.toJson.depth (Json.depthFields object.body.entries) + 1 := by
  have henvelope : Json.depthFields [("apiVersion", .string object.apiVersion),
      ("kind", .string object.kind), ("metadata", object.metadata.toJson)] =
      object.metadata.toJson.depth := by
    simp [Json.depthFields, Json.depth]
  rw [depth, Json.depth, toFields, Json.depthFields_append, henvelope]

/-- Where metadata has room, an object fits exactly if its body does. -/
theorem fits_depth {object : Object} {room : Json.Room} (wide : room.fits 4 = true) :
    room.fits object.depth = room.fits (Json.depthFields object.body.entries + 1) := by
  have hmetadata : room.fits (object.metadata.toJson.depth + 1) = true :=
    Json.Room.fits_mono wide (Nat.succ_le_succ object.metadata.depth_toJson_le)
  rw [depth_eq, ← Nat.add_max_add_right, Json.Room.fits_max, hmetadata, Bool.true_and]

theorem foldl_withField (object : Object) (fields : List (String × Json)) :
    fields.foldl (fun object field => object.withField field.1 field.2) object =
      { object with
        body := fields.foldl (fun body field => body.insert field.1 field.2) object.body } := by
  induction fields generalizing object with
  | nil => rfl
  | cons field rest ih => exact ih (object.withField field.1 field.2)

theorem foldl_insert_entries (table : Table String Json) :
    table.entries.foldl (fun body field => body.insert field.1 field.2) .empty = table := by
  apply Table.ext
  have hentries : ∀ (fields : List (String × Json)) (body : Table String Json),
      (fields.foldl (fun body field => body.insert field.1 field.2) body).entries =
        fields.foldl (fun done field => Entries.insert field.1 field.2 done) body.entries := by
    intro fields
    induction fields with
    | nil => exact fun _ => rfl
    | cons field rest ih => exact fun body => ih (body.insert field.1 field.2)
  rw [hentries]
  exact Entries.ofList_eq_self table.sorted

/-- The fields of a body are taken in one after the other, unless one is too deep. -/
theorem readFields_body {room : Json.Room} {fields : List (String × Json)}
    (normal : ∀ field ∈ fields, field.2.Normal)
    (free : ∀ field ∈ fields, field.1 ∉ members.map (·.name)) (seen : List String)
    (collected : Object) :
    Json.readFields members bodyField room seen collected (Json.Document.ofFields fields) =
      if room.fits (Json.depthFields fields) then
        .ok (seen, fields.foldl (fun object field => object.withField field.1 field.2) collected)
      else .error .malformed := by
  induction fields generalizing collected with
  | nil => exact (if_pos room.fits_zero).symm
  | cons field rest ih =>
    have hfield := List.mem_cons_self (a := field) (l := rest)
    have hfind : members.find? (·.name == field.1) = none := by
      rw [List.find?_eq_none]
      intro member hmem hname
      exact free field hfield (List.mem_map.mpr ⟨member, hmem, by simpa using hname⟩)
    have hrest := ih (fun other hother => normal other (.tail _ hother))
      (fun other hother => free other (.tail _ hother)) (collected.withField field.1 field.2)
    have hread : bodyField field.1 room (Json.Document.ofJson field.2) =
        if room.fits field.2.depth then .ok (fun object => object.withField field.1 field.2)
        else .error .malformed := by
      rw [bodyField, Json.any_ofJson, (normal field hfield).sorted_eq]
      cases room.fits field.2.depth <;> rfl
    simp only [Json.Document.ofFields, Json.readFields, bind, Except.bind, hfind, hread,
      Json.depthFields, Json.Room.fits_max]
    cases room.fits field.2.depth with
    | false => rfl
    | true => simpa using hrest

/-- Metadata that is read back is put into its place. -/
theorem put_metadata (m : Metadata) {room : Json.Room} (fits : room.fits 3 = true) :
    (Metadata.decoder room (.ofJson m.toJson)).map
      (fun value (o : Object) => { o with metadata := value }) =
      .ok fun o => { o with metadata := m } := by
  rw [m.decoder_toJson fits]
  rfl

/-- **Objects are read back.**  Where metadata has room, a proper object is read back from its fields if
    it fits, and is refused as too deep if it does not. -/
theorem decoder_toFields {object : Object} (proper : object.Proper) {room : Json.Room}
    (wide : room.fits 4 = true) :
    decoder room (.ofJson (.object object.toFields)) =
      if room.fits object.depth then .ok object else .error .malformed := by
  obtain ⟨inner, hinner, hinside⟩ := Json.Room.fits_succ_iff.mp wide
  have hmetadata := put_metadata object.metadata hinside
  -- The envelope comes first, and the body is collected into an object without one.
  have henvelope : Json.Collects members inner
      [("apiVersion", .string object.apiVersion), ("kind", .string object.kind),
        ("metadata", object.metadata.toJson)]
      ⟨"", "", .empty, .empty⟩ { object with body := .empty } :=
    .cons rfl rfl (.cons rfl rfl (.cons rfl hmetadata (.nil _)))
  have hread : Json.readFields members bodyField inner [] ⟨"", "", .empty, .empty⟩
      (Json.Document.ofFields object.toFields) =
        if inner.fits (Json.depthFields object.body.entries) then
          .ok (["metadata", "kind", "apiVersion"], object)
        else .error .malformed := by
    rw [toFields, Json.readFields_of_collects henvelope (by simp) (by simp),
      readFields_body proper.normal proper.free, foldl_withField, foldl_insert_entries]
    rfl
  have hcomplete : members.all (fun member => !member.required ||
      ["metadata", "kind", "apiVersion"].contains member.name) = true := by
    simp [members, Json.Member.needed, Json.Member.optional]
  rw [fits_depth wide, Json.Room.fits_succ hinner]
  simp only [decoder, Json.Document.ofJson, Json.recordOfFields, hinner, bind, Except.bind, hread]
  cases inner.fits (Json.depthFields object.body.entries) with
  | false => rfl
  | true => exact if_pos hcomplete

/-! ### Whatever is read is proper -/

/-- Whether a body holds no part of the envelope, and values that are normal and fit into some room. -/
def Holds (room : Json.Room) (object : Object) : Prop :=
  ∀ field ∈ object.body.entries, Json.Sound room field.2 ∧ field.1 ∉ members.map (·.name)

/-- What is read as a part of the envelope leaves the body alone. -/
theorem body_of_member {member : Json.Member Object} (hmem : member ∈ members) {room : Json.Room}
    {document : Json.Document} {store : Object → Object}
    (h : member.read room document = .ok store) (object : Object) :
    (store object).body = object.body := by
  simp only [members, List.mem_cons, List.not_mem_nil, or_false] at hmem
  rcases hmem with rfl | rfl | rfl
  all_goals
    obtain ⟨_, _, rfl⟩ := map_eq_ok.mp h
    rfl

theorem holds_of_readFields {room : Json.Room} {seen seen' : List String} {before after : Object}
    {fields : List (Except Json.Category String × Json.Document)}
    (h : Json.readFields members bodyField room seen before fields = .ok (seen', after))
    (holds : before.Holds room) : after.Holds room := by
  induction fields generalizing seen before with
  | nil =>
    cases h
    exact holds
  | cons field rest ih =>
    obtain ⟨label, document⟩ := field
    obtain ⟨label, rfl, hread⟩ := bind_eq_ok.mp h
    cases hfind : members.find? (·.name == label) with
    | none =>
      simp only [hfind] at hread
      obtain ⟨store, hstore, hrest⟩ := bind_eq_ok.mp hread
      obtain ⟨value, hvalue, rfl⟩ := map_eq_ok.mp hstore
      refine ih hrest fun field hfield => ?_
      rcases Entries.mem_insert hfield with rfl | hbefore
      · refine ⟨Json.sound_of_any hvalue, fun hmem => ?_⟩
        obtain ⟨member, hmember, hname⟩ := List.mem_map.mp hmem
        have hnot := List.find?_eq_none.mp hfind member hmember
        exact hnot (by simp [hname])
      · exact holds field hbefore
    | some member =>
      simp only [hfind] at hread
      split at hread
      · cases hread
      · obtain ⟨store, hstore, hrest⟩ := bind_eq_ok.mp hread
        have hbody : (store before).body = before.body :=
          body_of_member (List.mem_of_find?_eq_some hfind) hstore before
        refine ih hrest fun field hfield => ?_
        rw [hbody] at hfield
        exact holds field hfield

/-- **Whatever is read** from a document has a body that fits inside, of normal values, and without the
    envelope. -/
theorem holds_of_decoder {room inner : Json.Room} (opens : room.enter = .ok inner)
    {document : Json.Document} {object : Object} (h : decoder room document = .ok object) :
    object.Holds inner := by
  cases document with
  | object fields ending =>
    obtain ⟨entered, seen, hentered, hfields⟩ := Json.readFields_of_recordOfFields h
    obtain rfl : inner = entered := Except.ok.inj (opens.symm.trans hentered)
    apply holds_of_readFields hfields
    intro field hfield
    cases hfield
  | null | bool | number | string | array | missing => cases h

theorem Holds.proper {room : Json.Room} {object : Object} (h : object.Holds room) : object.Proper where
  normal := fun field hfield => (h field hfield).1.1
  free := fun field hfield => (h field hfield).2

/-- An object fits if metadata has room and the body fits inside. -/
theorem Holds.fits {room inner : Json.Room} {object : Object} (h : object.Holds inner)
    (opens : room.enter = .ok inner) (wide : room.fits 4 = true) : room.fits object.depth = true := by
  rw [fits_depth wide, Json.Room.fits_succ opens, Json.fits_depthFields_iff]
  exact fun field hfield => (h field hfield).1.2

end Object

end Reconciliation
