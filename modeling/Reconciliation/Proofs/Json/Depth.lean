import Reconciliation.Json.Decode
import Reconciliation.Proofs.Fallible
import Reconciliation.Proofs.Table

namespace Reconciliation.Json

/-!
# How deep values are nested

* `depth` — how many arrays and objects are open at once in a value;
* `Room.fits` — whether a depth fits into the room that is left;
* `any_ofJson` — the tree of a value is read as the value with its fields in order if the value fits,
  and is refused if it does not;
* `Normal` — values whose fields are in order, which are therefore read back as they are;
* `sound_of_any` — whatever is read from a document is normal and fits.
-/

/-! ### Depth and room -/

mutual

/-- How many arrays and objects are open at once in a value. -/
def depth : Json → Nat
  | array items => depthItems items + 1
  | object fields => depthFields fields + 1
  | null | bool _ | number _ | string _ => 0

/-- The greatest depth of the items. -/
def depthItems : List Json → Nat
  | [] => 0
  | item :: rest => max (depth item) (depthItems rest)

/-- The greatest depth of the values of the fields. -/
def depthFields : List (String × Json) → Nat
  | [] => 0
  | (_, value) :: rest => max (depth value) (depthFields rest)

end

/-- Whether a depth fits into the room that is left. -/
def Room.fits (room : Room) (depth : Nat) : Bool := room.all fun n => decide (depth ≤ n)

@[simp] theorem Room.fits_max (room : Room) (first second : Nat) :
    room.fits (max first second) = (room.fits first && room.fits second) := by
  cases room with
  | none => rfl
  | some n => simp only [Room.fits, Option.all_some, Nat.max_le, Bool.decide_and]

/-- A scalar fits everywhere. -/
@[simp] theorem Room.fits_zero (room : Room) : room.fits 0 = true := by
  cases room <;> rfl

theorem fits_depthItems_iff {room : Room} {items : List Json} :
    room.fits (depthItems items) = true ↔ ∀ item ∈ items, room.fits item.depth = true := by
  induction items with
  | nil => simp [depthItems]
  | cons item rest ih => simp [depthItems, ih]

theorem fits_depthFields_iff {room : Room} {fields : List (String × Json)} :
    room.fits (depthFields fields) = true ↔ ∀ field ∈ fields, room.fits field.2.depth = true := by
  induction fields with
  | nil => simp [depthFields]
  | cons field rest ih => simp [depthFields, ih]

/-- What fits leaves room for less. -/
theorem Room.fits_mono {room : Room} {depth less : Nat} (h : room.fits depth = true)
    (hle : less ≤ depth) : room.fits less = true := by
  cases room with
  | none => rfl
  | some n =>
    have hn : depth ≤ n := by simpa [Room.fits] using h
    simp [Room.fits]
    omega

/-- What is in an array or object fits inside exactly if the array or object fits. -/
theorem Room.fits_succ_iff {room : Room} {depth : Nat} :
    room.fits (depth + 1) = true ↔ ∃ inner, room.enter = .ok inner ∧ inner.fits depth = true := by
  match room with
  | none => exact ⟨fun _ => ⟨none, rfl, rfl⟩, fun _ => rfl⟩
  | some 0 =>
    constructor
    · intro h
      simp [Room.fits] at h
    · rintro ⟨inner, hinner, _⟩
      cases hinner
  | some (n + 1) =>
    constructor
    · intro h
      exact ⟨some n, rfl, by simpa [Room.fits] using h⟩
    · rintro ⟨inner, hinner, h⟩
      cases hinner
      simpa [Room.fits] using h

/-- What fits inside an array or object that has been opened. -/
theorem Room.fits_succ {room inner : Room} (opens : room.enter = .ok inner) (depth : Nat) :
    room.fits (depth + 1) = inner.fits depth := by
  match room with
  | none =>
    cases opens
    rfl
  | some 0 => cases opens
  | some (n + 1) =>
    cases opens
    simp [Room.fits]

/-! ### Reading the tree of a value -/

/-- What is read inside an array or object that is opened. -/
theorem enter_bind {α : Type} (room : Room) (depth : Nat) {inside : Room → Except Category α}
    {value : α}
    (h : ∀ inner, inside inner = if inner.fits depth then .ok value else .error .malformed) :
    (room.enter >>= inside) =
      if room.fits (depth + 1) then .ok value else .error .malformed := by
  match room with
  | none => exact h none
  | some 0 => rfl
  | some (n + 1) =>
    have hfits : Room.fits (some (n + 1)) (depth + 1) = Room.fits (some n) depth := by
      simp [Room.fits]
    rw [hfits]
    exact h (some n)

mutual

/-- **Any value.**  The tree of a value is read as the value with its fields in order if it fits, and is
    refused as too deep if it does not. -/
theorem any_ofJson (room : Room) : ∀ value : Json, any room (Document.ofJson value) =
    if room.fits value.depth then .ok value.sorted else .error .malformed
  | .null => by cases room <;> rfl
  | .bool _ => by cases room <;> rfl
  | .number _ => by cases room <;> rfl
  | .string _ => by cases room <;> rfl
  | .array items => by
    rw [Document.ofJson, any, depth, sorted]
    apply enter_bind
    intro inner
    rw [anyItems_ofItems inner items]
    cases inner.fits (depthItems items) <;> rfl
  | .object fields => by
    rw [Document.ofJson, any, depth, sorted]
    apply enter_bind
    intro inner
    rw [anyFields_ofFields inner fields]
    cases inner.fits (depthFields fields) <;> rfl

theorem anyItems_ofItems (room : Room) : ∀ items : List Json,
    anyItems room (Document.ofItems items) =
      if room.fits (depthItems items) then .ok (sortedItems items) else .error .malformed
  | [] => by cases room <;> rfl
  | item :: rest => by
    rw [Document.ofItems, anyItems, any_ofJson room item, anyItems_ofItems room rest, depthItems,
      Room.fits_max]
    cases room.fits item.depth <;> cases room.fits (depthItems rest) <;> rfl

theorem anyFields_ofFields (room : Room) : ∀ fields : List (String × Json),
    anyFields room (Document.ofFields fields) =
      if room.fits (depthFields fields) then .ok (sortedFields fields) else .error .malformed
  | [] => by cases room <;> rfl
  | (name, value) :: rest => by
    rw [Document.ofFields, anyFields, any_ofJson room value, anyFields_ofFields room rest,
      depthFields, Room.fits_max]
    cases room.fits value.depth <;> cases room.fits (depthFields rest) <;> rfl

end

/-! ### Values that are read back as they are -/

/-- A value in which the fields of every object stand in the order of their names. -/
inductive Normal : Json → Prop
  | null : Normal .null
  | bool (value : Bool) : Normal (.bool value)
  | number (value : Number) : Normal (.number value)
  | string (text : String) : Normal (.string text)
  | array {items : List Json} (inside : ∀ item ∈ items, Normal item) : Normal (.array items)
  | object {fields : List (String × Json)} (ordered : Entries.Sorted fields)
      (inside : ∀ field ∈ fields, Normal field.2) : Normal (.object fields)

theorem sortedItems_eq_self {items : List Json} (h : ∀ item ∈ items, item.sorted = item) :
    sortedItems items = items := by
  induction items with
  | nil => rfl
  | cons item rest ih =>
    rw [sortedItems, h item List.mem_cons_self, ih fun other hother => h other (.tail _ hother)]

theorem sortedFields_eq_self {fields : List (String × Json)}
    (h : ∀ field ∈ fields, field.2.sorted = field.2) : sortedFields fields = fields := by
  induction fields with
  | nil => rfl
  | cons field rest ih =>
    rw [sortedFields, h field List.mem_cons_self, ih fun other hother => h other (.tail _ hother)]

/-- In a normal value there is nothing to be put in order. -/
theorem Normal.sorted_eq {value : Json} (h : value.Normal) : value.sorted = value := by
  induction h with
  | null | bool | number | string => rfl
  | array _ ih => rw [sorted, sortedItems_eq_self ih]
  | object ordered _ ih =>
    rw [sorted, sortedFields_eq_self ih, ofFields, Entries.ofList_eq_self ordered]

/-! ### Whatever is read -/

/-- Whether a value is normal and fits into some room. -/
def Sound (room : Room) (value : Json) : Prop := value.Normal ∧ room.fits value.depth = true

theorem sound_array {room inner : Room} {items : List Json} (opens : room.enter = .ok inner)
    (h : ∀ item ∈ items, Sound inner item) : Sound room (.array items) := by
  refine ⟨.array fun item hitem => (h item hitem).1, ?_⟩
  have hinside : inner.fits (depthItems items) = true :=
    fits_depthItems_iff.mpr fun item hitem => (h item hitem).2
  exact Room.fits_succ_iff.mpr ⟨inner, opens, hinside⟩

theorem sound_ofFields {room inner : Room} {fields : List (String × Json)}
    (opens : room.enter = .ok inner) (h : ∀ field ∈ fields, Sound inner field.2) :
    Sound room (ofFields fields) := by
  refine ⟨.object (Entries.sorted_ofList fields) fun field hfield =>
    (h field (Entries.mem_ofList hfield)).1, ?_⟩
  have hinside : inner.fits (depthFields (Entries.ofList fields)) = true :=
    fits_depthFields_iff.mpr fun field hfield => (h field (Entries.mem_ofList hfield)).2
  exact Room.fits_succ_iff.mpr ⟨inner, opens, hinside⟩

mutual

/-- Whatever is read from a document is normal and fits into the room. -/
theorem sound_of_any {room : Room} : ∀ {document : Document} {value : Json},
    any room document = .ok value → Sound room value
  | .null, _, h => by
    cases h
    exact ⟨.null, room.fits_zero⟩
  | .bool _, _, h => by
    cases h
    exact ⟨.bool _, room.fits_zero⟩
  | .number _, _, h => by
    obtain ⟨number, _, rfl⟩ := map_eq_ok.mp h
    exact ⟨.number number, room.fits_zero⟩
  | .string _, _, h => by
    obtain ⟨text, _, rfl⟩ := map_eq_ok.mp h
    exact ⟨.string text, room.fits_zero⟩
  | .array items _, _, h => by
    obtain ⟨inner, hinner, hrest⟩ := bind_eq_ok.mp h
    obtain ⟨values, hvalues, hrest⟩ := bind_eq_ok.mp hrest
    obtain ⟨_, _, hsame⟩ := bind_eq_ok.mp hrest
    cases hsame
    exact sound_array hinner (sound_of_anyItems hvalues)
  | .object fields _, _, h => by
    obtain ⟨inner, hinner, hrest⟩ := bind_eq_ok.mp h
    obtain ⟨values, hvalues, hrest⟩ := bind_eq_ok.mp hrest
    obtain ⟨_, _, hsame⟩ := bind_eq_ok.mp hrest
    cases hsame
    exact sound_ofFields hinner (sound_of_anyFields hvalues)
  | .missing _ _, _, h => by cases h

theorem sound_of_anyItems {room : Room} : ∀ {items : List Document} {values : List Json},
    anyItems room items = .ok values → ∀ value ∈ values, Sound room value
  | [], _, h => by
    cases h
    intro value hvalue
    cases hvalue
  | item :: rest, _, h => by
    obtain ⟨first, hfirst, hrest⟩ := bind_eq_ok.mp h
    obtain ⟨others, hothers, hsame⟩ := bind_eq_ok.mp hrest
    cases hsame
    intro value hvalue
    rcases List.mem_cons.mp hvalue with rfl | hmem
    · exact sound_of_any hfirst
    · exact sound_of_anyItems hothers value hmem

theorem sound_of_anyFields {room : Room} :
    ∀ {fields : List (Except Category String × Document)} {values : List (String × Json)},
    anyFields room fields = .ok values → ∀ value ∈ values, Sound room value.2
  | [], _, h => by
    cases h
    intro value hvalue
    cases hvalue
  | (name, document) :: rest, _, h => by
    obtain ⟨label, _, hrest⟩ := bind_eq_ok.mp h
    obtain ⟨first, hfirst, hrest⟩ := bind_eq_ok.mp hrest
    obtain ⟨others, hothers, hsame⟩ := bind_eq_ok.mp hrest
    cases hsame
    intro value hvalue
    rcases List.mem_cons.mp hvalue with rfl | hmem
    · exact sound_of_any hfirst
    · exact sound_of_anyFields hothers value hmem

end

end Reconciliation.Json
