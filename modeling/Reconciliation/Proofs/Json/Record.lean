import Reconciliation.Json.Decode
import Reconciliation.Proofs.Fallible

namespace Reconciliation.Json

/-!
# Records and their members

What a record that has been read says about one of its members:

* `readFields_of_recordOfFields` — a record that was read was collected from the fields;
* `Document.member?` — the document that stands for a member, in an object or in an array;
* `Gathers` — that a member is decoded into a part of the record, which no other member touches;
* `Fills` — the part is what the document of the member is decoded to, or as it was without one;
* `fills_of_record` — reading a record fills the part of each member;
* `Flat`, `record_congr` — a record without arrays and objects in it is read alike at any depth.
-/

variable {α β : Type}

/-! ### Fields of a record -/

/-- A record that was read from an object was collected from its fields. -/
theorem readFields_of_recordOfFields {members : List (Member α)} {other : Other α} {initial value : α}
    {room : Room} {fields : List (Except Category String × Document)} {ending : Option Break}
    (h : recordOfFields members other initial room (.object fields ending) = .ok value) :
    ∃ inner seen, room.enter = .ok inner ∧
      readFields members other inner [] initial fields = .ok (seen, value) := by
  obtain ⟨inner, hinner, hrest⟩ := bind_eq_ok.mp h
  obtain ⟨⟨seen, last⟩, hfields, hrest⟩ := bind_eq_ok.mp hrest
  obtain ⟨_, _, hrest⟩ := bind_eq_ok.mp hrest
  split at hrest
  · cases hrest
    exact ⟨inner, seen, hinner, hfields⟩
  · cases hrest

/-! ### One member -/

/-- The document that stands for a member of a record: the first field of the name, or the item at the
    place of the member among the names. -/
def Document.member? (names : List String) (name : String) : Document → Option Document
  | .object fields _ => (fields.find? fun field => field.1.toOption == some name).map (·.2)
  | .array items _ => ((names.zip items).find? fun item => item.1 == name).map (·.2)
  | .null | .bool _ | .number _ | .string _ | .missing _ _ => none

/-- The members of a name are decoded into a part of what is collected, which no other member
    touches. -/
structure Gathers (members : List (Member α)) (name : String) (decode : Decoder β) (part : α → β) :
    Prop where
  own : ∀ member ∈ members, member.name = name → ∀ room document store,
    member.read room document = .ok store → ∀ collected,
      decode room document = .ok (part (store collected))
  other : ∀ member ∈ members, member.name ≠ name → ∀ room document store,
    member.read room document = .ok store → ∀ collected, part (store collected) = part collected

/-- What a part is after its member has been read: what the document of the member is decoded to, or
    what it was before, if there is none. -/
def Fills (decode : Decoder β) (room : Room) (before after : β) : Option Document → Prop
  | none => after = before
  | some document => decode room document = .ok after

theorem Fills.unique {decode : Decoder β} {room : Room} {before after other : β}
    {document? : Option Document} (h : Fills decode room before after document?)
    (hother : Fills decode room before other document?) : after = other := by
  cases document? with
  | none => exact Eq.trans h hother.symm
  | some document => exact Except.ok.inj (Eq.trans h.symm hother)

variable {members : List (Member α)} {name : String} {decode : Decoder β} {part : α → β}
  {room : Room}

theorem Gathers.tail {member : Member α} (h : Gathers (member :: members) name decode part) :
    Gathers members name decode part :=
  ⟨fun _ hmem => h.own _ (.tail _ hmem), fun _ hmem => h.other _ (.tail _ hmem)⟩

/-- A field that is no member changes nothing. -/
theorem eq_id_of_skip {other : String} {document : Document} {store : α → α}
    (h : Other.skip other room document = .ok store) : store = id := by
  unfold Other.skip at h
  split at h
  · cases h
    rfl
  · cases h

/-- **Fields.**  A member that has been read is not read again, and one that has not is filled by its
    first field. -/
theorem fills_of_readFields (gathers : Gathers members name decode part)
    (known : name ∈ members.map (·.name)) {fields : List (Except Category String × Document)}
    {seen seen' : List String} {collected last : α}
    (h : readFields members .skip room seen collected fields = .ok (seen', last)) :
    if name ∈ seen then part last = part collected
    else Fills decode room (part collected) (part last)
      ((fields.find? fun field => field.1.toOption == some name).map (·.2)) := by
  induction fields generalizing seen collected with
  | nil =>
    cases h
    split <;> exact rfl
  | cons field rest ih =>
    obtain ⟨label, document⟩ := field
    obtain ⟨label, rfl, hread⟩ := bind_eq_ok.mp h
    by_cases hname : label = name
    · -- The field is the member, which has to be read for the first time.
      subst hname
      have hfound : (members.find? (·.name == label)).isSome := by
        simpa [List.find?_isSome] using known
      obtain ⟨member, hfind⟩ := Option.isSome_iff_exists.mp hfound
      have hmem : member ∈ members := List.mem_of_find?_eq_some hfind
      have hlabel : member.name = label := by simpa using List.find?_some hfind
      simp only [hfind] at hread
      split at hread
      · cases hread
      · rename_i hfresh
        have hfresh : label ∉ seen := by simpa using hfresh
        obtain ⟨store, hstore, hrest⟩ := bind_eq_ok.mp hread
        have hlast : part last = part (store collected) := by
          simpa using ih hrest
        rw [if_neg hfresh, List.find?_cons_of_pos (by simp [Except.toOption]), hlast]
        exact gathers.own member hmem hlabel room document store hstore collected
    · -- The field is another member or none, and the part stays.
      rw [List.find?_cons_of_neg (by simpa [Except.toOption] using hname)]
      cases hfind : members.find? (·.name == label) with
      | none =>
        simp only [hfind] at hread
        obtain ⟨store, hstore, hrest⟩ := bind_eq_ok.mp hread
        rw [eq_id_of_skip hstore] at hrest
        exact ih hrest
      | some member =>
        have hmem : member ∈ members := List.mem_of_find?_eq_some hfind
        have hlabel : member.name = label := by simpa using List.find?_some hfind
        simp only [hfind] at hread
        split at hread
        · cases hread
        · obtain ⟨store, hstore, hrest⟩ := bind_eq_ok.mp hread
          have hkeeps : part (store collected) = part collected :=
            gathers.other member hmem (by rwa [hlabel]) room document store hstore collected
          have hrest := ih hrest
          rw [hkeeps] at hrest
          simpa [Ne.symm hname] using hrest

/-- **Items.**  A member is filled by the item in its place. -/
theorem fills_of_readItems {ending : Option Break} (gathers : Gathers members name decode part)
    (distinct : (members.map (·.name)).Nodup) {items : List Document} {collected last : α}
    (h : readItems room ending collected members items = .ok last) :
    Fills decode room (part collected) (part last)
      ((((members.map (·.name)).zip items).find? fun item => item.1 == name).map (·.2)) := by
  induction members generalizing items collected with
  | nil =>
    cases items with
    | nil =>
      obtain ⟨_, _, hlast⟩ := bind_eq_ok.mp h
      cases hlast
      exact rfl
    | cons item rest => cases h
  | cons member members ih =>
    obtain ⟨hfresh, hdistinct⟩ := List.nodup_cons.mp distinct
    cases items with
    | nil =>
      obtain ⟨_, _, hrest⟩ := bind_eq_ok.mp h
      split at hrest
      · cases hrest
      · have hrest := ih gathers.tail hdistinct hrest
        simpa using hrest
    | cons item rest =>
      obtain ⟨store, hstore, hrest⟩ := bind_eq_ok.mp h
      have hrest := ih gathers.tail hdistinct hrest
      rw [List.map_cons, List.zip_cons_cons]
      by_cases hname : member.name = name
      · -- No later member has the name, so that the part stays from here on.
        have hnone : ((members.map (·.name)).zip rest).find? (fun item => item.1 == name) = none := by
          rw [List.find?_eq_none]
          intro pair hpair heq
          have hlabel : pair.1 = member.name := by rw [hname]; simpa using heq
          have hlater := (List.of_mem_zip hpair).1
          rw [hlabel] at hlater
          exact hfresh hlater
        rw [hnone] at hrest
        have hlast : part last = part (store collected) := hrest
        rw [List.find?_cons_of_pos (by simpa using hname), hlast]
        exact gathers.own member (.head _) hname room item store hstore collected
      · have hkeeps : part (store collected) = part collected :=
          gathers.other member (.head _) hname room item store hstore collected
        rw [List.find?_cons_of_neg (by simpa using hname), ← hkeeps]
        exact hrest

/-- **Record.**  A record that has been read has, in the part of a member, what the document of the
    member is decoded to, or what it had initially if there is none. -/
theorem fills_of_record (gathers : Gathers members name decode part)
    (known : name ∈ members.map (·.name)) (distinct : (members.map (·.name)).Nodup)
    {initial value : α} {document : Document} (h : record members initial room document = .ok value) :
    ∃ inner, room.enter = .ok inner ∧
      Fills decode inner (part initial) (part value)
        (document.member? (members.map (·.name)) name) := by
  cases document with
  | array items ending =>
    obtain ⟨inner, hinner, hitems⟩ := bind_eq_ok.mp h
    exact ⟨inner, hinner, fills_of_readItems gathers distinct hitems⟩
  | object fields ending =>
    obtain ⟨inner, seen, hinner, hfields⟩ := readFields_of_recordOfFields h
    have hfills := fills_of_readFields gathers known hfields
    rw [if_neg List.not_mem_nil] at hfills
    exact ⟨inner, hinner, hfills⟩
  | null | bool | number | string | missing => cases h

/-! ### Any depth -/

/-- A decoder that reads alike at any depth. -/
def Flat (decode : Decoder α) : Prop :=
  ∀ room room' document, decode room document = decode room' document

theorem flat_text : Flat text := by
  intro room room' document
  cases document with
  | string content => cases content <;> rfl
  | _ => rfl

theorem Flat.nullable (h : Flat decode) : Flat (nullable decode) := by
  intro room room' document
  cases document with
  | null => rfl
  | _ => exact congrArg (Except.map some) (h room room' _)

theorem Flat.member (h : Flat decode) (label : String) (store : β → α → α) :
    Flat (Member.optional label decode store).read := by
  intro room room' document
  exact congrArg (Except.map store) (h room room' document)

section
variable (flat : ∀ member ∈ members, Flat member.read)
include flat

theorem readFields_congr (room room' : Room) (seen : List String) (collected : α)
    (fields : List (Except Category String × Document)) :
    readFields members .skip room seen collected fields =
      readFields members .skip room' seen collected fields := by
  induction fields generalizing seen collected with
  | nil => rfl
  | cons field rest ih =>
    obtain ⟨label, document⟩ := field
    have hskip (label : String) : (Other.skip label : Decoder (α → α)) room document =
        Other.skip label room' document := rfl
    simp only [readFields, ih, hskip]
    refine bind_congr fun label => ?_
    cases hfind : members.find? (·.name == label) with
    | none => rfl
    | some member =>
      simp only [flat member (List.mem_of_find?_eq_some hfind) room room' document]

theorem readItems_congr (room room' : Room) (ending : Option Break) (collected : α)
    (items : List Document) :
    readItems room ending collected members items =
      readItems room' ending collected members items := by
  induction members generalizing items collected with
  | nil => cases items <;> rfl
  | cons member members ih =>
    have ih := ih fun other hmem => flat other (.tail _ hmem)
    cases items with
    | nil => simp only [readItems, ih]
    | cons item rest => simp only [readItems, ih, flat member (.head _) room room' item]

/-- A record without arrays and objects in it is read alike wherever it may open. -/
theorem record_congr (initial : α) {outer outer' inner inner' : Room}
    (opens : outer.enter = .ok inner) (opens' : outer'.enter = .ok inner') (document : Document) :
    record members initial outer document = record members initial outer' document := by
  cases document with
  | array items ending =>
    simp only [record, opens, opens']
    exact readItems_congr flat inner inner' ending initial items
  | object fields ending =>
    simp only [record, recordOfFields, opens, opens']
    show (readFields members .skip inner [] initial fields >>= _) =
      (readFields members .skip inner' [] initial fields >>= _)
    rw [readFields_congr flat inner inner']
  | null | bool | number | string | missing => rfl

end

end Reconciliation.Json
