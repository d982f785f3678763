import Reconciliation.Object.Field
import Reconciliation.Proofs.Json.Depth

namespace Reconciliation

/-!
# Setting a field of an object

* `Json.inside?` — the fields in which a path goes on, none yet where there is nothing;
* `Json.setAt?_eq_none_iff` — a value cannot be set exactly if something on the way is no object;
* `Json.Written` — what a value that was set at a path has changed, and what it has left alone;
* `Object.assign` — the walk that sets a field in place, and creates what is missing as it goes;
* `Json.setAt?_eq_write` — the walk does what setting does, and has created nothing where it fails;
* `Object.Ordered` — a body whose values are in order, as setting fields keeps it;
* `Object.setField_atomic` — setting a field of an object fails or changes that field alone.
-/

namespace Json

/-! ### One step of a path -/

/-- The fields in which a path goes on from what is there: none yet if nothing is there, and there is
    no going on from a value that is no object. -/
def inside? : Option Json → Option (List (String × Json))
  | none => some []
  | some value => value.fields?

theorem inside?_eq_none_iff {here : Option Json} :
    inside? here = none ↔ ∃ held, here = some held ∧ held.fields? = none := by
  cases here <;> simp [inside?]

theorem fields?_eq_some_iff {value : Json} {fields : List (String × Json)} :
    value.fields? = some fields ↔ value = .object fields := by
  cases value <;> simp [fields?]

/-- Looking further goes on inside. -/
theorem bind_at?_cons (name : String) (path : List String) (here : Option Json) :
    here.bind (at? (name :: path)) =
      (inside? here).bind fun fields => (Entries.find? name fields).bind (at? path) := by
  match here with
  | none => rfl
  | some (.object fields) => rfl
  | some .null | some (.bool _) | some (.number _) | some (.string _) | some (.array _) => rfl

/-- Setting a value further down sets it inside. -/
theorem setAt?_cons (value : Json) (name : String) (path : List String) (here : Option Json) :
    setAt? value (name :: path) here =
      (inside? here).bind fun fields =>
        (setAt? value path (Entries.find? name fields)).map fun inner =>
          .object (Entries.insert name inner fields) := by
  match here with
  | none => rfl
  | some (.object fields) => rfl
  | some .null | some (.bool _) | some (.number _) | some (.string _) | some (.array _) => rfl

/-! ### When a value cannot be set -/

/-- A value cannot be set exactly if something on the way to its place is no object. -/
theorem setAt?_eq_none_iff {value : Json} {path : List String} {here : Option Json} :
    setAt? value path here = none ↔
      ∃ way held, way <+: path ∧ way ≠ path ∧
        here.bind (at? way) = some held ∧ held.fields? = none := by
  induction path generalizing here with
  | nil =>
    constructor
    · intro h
      cases h
    · rintro ⟨way, held, hway, hne, -⟩
      exact absurd (List.prefix_nil.mp hway) hne
  | cons name path ih =>
    rw [setAt?_cons]
    -- Either the way ends right here, or whatever stops it is inside.
    cases hinside : inside? here with
    | none =>
      obtain ⟨held, rfl, hheld⟩ := inside?_eq_none_iff.mp hinside
      have hnil : [] ≠ name :: path := (List.cons_ne_nil name path).symm
      exact iff_of_true rfl ⟨[], held, List.nil_prefix, hnil, rfl, hheld⟩
    | some fields =>
      rw [Option.bind_some, Option.map_eq_none_iff, ih]
      constructor
      · rintro ⟨way, held, hway, hne, hfound, hheld⟩
        refine ⟨name :: way, held, List.cons_prefix_cons.mpr ⟨rfl, hway⟩, by simpa using hne, ?_,
          hheld⟩
        rw [bind_at?_cons, hinside, Option.bind_some, hfound]
      · rintro ⟨way, held, hway, hne, hfound, hheld⟩
        cases way with
        | nil =>
          -- What is here is an object, so the way does not end here.
          have hhere : here = some held := by
            rw [← hfound]
            cases here <;> rfl
          have hnone := inside?_eq_none_iff.mpr ⟨held, hhere, hheld⟩
          rw [hinside] at hnone
          cases hnone
        | cons first way =>
          obtain ⟨rfl, hbelow⟩ := List.cons_prefix_cons.mp hway
          rw [bind_at?_cons, hinside, Option.bind_some] at hfound
          exact ⟨way, held, hbelow, by simpa using hne, hfound, hheld⟩

/-- Where nothing is there yet, a value can always be set. -/
theorem setAt?_missing_ne_none (value : Json) (path : List String) :
    setAt? value path none ≠ none := by
  intro h
  obtain ⟨_, _, _, _, hfound, _⟩ := setAt?_eq_none_iff.mp h
  cases hfound

/-! ### What a value that was set has changed -/

/-- A value that has `value` at a path, objects on the way to it, and what was there before at every
    place that is neither on the way nor below. -/
structure Written (value : Json) (path : List String) (here : Option Json) (after : Json) : Prop where
  found : at? path after = some value
  way : ∀ way, way <+: path → way ≠ path → ∃ fields, at? way after = some (.object fields)
  others : ∀ other, ¬ other <+: path → ¬ path <+: other → at? other after = here.bind (at? other)

/-- **Step.**  A value that was written inside is written below a name. -/
theorem Written.below {value inner : Json} {path : List String} {here : Option Json} {name : String}
    {fields : List (String × Json)} (inside : inside? here = some fields)
    (h : Written value path (Entries.find? name fields) inner) :
    Written value (name :: path) here (.object (Entries.insert name inner fields)) where
  found := by
    show (Entries.find? name (Entries.insert name inner fields)).bind (at? path) = some value
    rw [Entries.find?_insert_self, Option.bind_some, h.found]
  way := by
    intro way hway hne
    cases way with
    | nil => exact ⟨_, rfl⟩
    | cons first way =>
      obtain ⟨rfl, hbelow⟩ := List.cons_prefix_cons.mp hway
      show ∃ held,
        (Entries.find? first (Entries.insert first inner fields)).bind (at? way) = some (.object held)
      rw [Entries.find?_insert_self, Option.bind_some]
      exact h.way way hbelow (by simpa using hne)
  others := by
    intro other hbefore hafter
    cases other with
    | nil => exact absurd List.nil_prefix hbefore
    | cons first other =>
      show (Entries.find? first (Entries.insert name inner fields)).bind (at? other) = _
      rw [bind_at?_cons, inside, Option.bind_some]
      -- Beside the name nothing was written, and below it the frame law holds inside.
      by_cases hfirst : first = name
      · subst hfirst
        rw [List.cons_prefix_cons, not_and] at hbefore hafter
        rw [Entries.find?_insert_self, Option.bind_some]
        exact h.others other (hbefore rfl) (hafter rfl)
      · rw [Entries.find?_insert_of_ne hfirst]

/-- **Run.**  Whatever is set at a path is written there. -/
theorem written_of_setAt? {value : Json} {path : List String} {here : Option Json} {after : Json}
    (h : setAt? value path here = some after) : Written value path here after := by
  induction path generalizing here after with
  | nil =>
    obtain rfl := Option.some.inj h
    exact {
      found := rfl
      way := fun way hway hne => absurd (List.prefix_nil.mp hway) hne
      others := fun other _ hafter => absurd List.nil_prefix hafter }
  | cons name path ih =>
    rw [setAt?_cons] at h
    obtain ⟨fields, hinside, hset⟩ := Option.bind_eq_some_iff.mp h
    obtain ⟨inner, hinner, rfl⟩ := Option.map_eq_some_iff.mp hset
    exact (ih hinner).below hinside

/-- A value that is set in a value that is in order leaves it in order. -/
theorem normal_of_setAt? {value : Json} {path : List String} {here : Option Json} {after : Json}
    (normal : value.Normal) (before : ∀ held, here = some held → held.Normal)
    (h : setAt? value path here = some after) : after.Normal := by
  induction path generalizing here after with
  | nil =>
    obtain rfl := Option.some.inj h
    exact normal
  | cons name path ih =>
    rw [setAt?_cons] at h
    obtain ⟨fields, hinside, hset⟩ := Option.bind_eq_some_iff.mp h
    obtain ⟨inner, hinner, rfl⟩ := Option.map_eq_some_iff.mp hset
    have hfields : (Json.object fields).Normal := by
      cases here with
      | none =>
        obtain rfl := Option.some.inj hinside
        exact .object List.Pairwise.nil fun _ hmem => by cases hmem
      | some held =>
        obtain rfl := fields?_eq_some_iff.mp hinside
        exact before _ rfl
    cases hfields with
    | object ordered inside =>
      have hnormal : inner.Normal :=
        ih (fun held hheld => inside _ (Entries.mem_of_find? hheld)) hinner
      refine .object (Entries.sorted_insert name inner ordered) fun field hfield => ?_
      rcases Entries.mem_insert hfield with rfl | hbefore
      · exact hnormal
      · exact inside field hbefore

/-! ### The walk in place -/

/-- The walk along `parents` to the fields in which `value` is written as `last`.  It creates what is
    missing as it goes, and stops where it comes to a value that is no object; whatever it has
    changed by then stays.  The flag says whether it has come to its end. -/
def write (value : Json) (last : String) :
    List String → List (String × Json) → Bool × List (String × Json)
  | [], fields => (true, Entries.insert last value fields)
  | name :: parents, fields =>
    let here := if (Entries.find? name fields).isSome then fields
      else Entries.insert name (.object []) fields
    match Entries.find? name here with
    | some (.object inner) =>
      let walk := write value last parents inner
      (walk.1, Entries.insert name (.object walk.2) here)
    | _ => (false, here)

section

variable {value : Json} {last name : String} {parents : List String} {fields : List (String × Json)}

/-- **Step.**  A parent that is missing is created, and the walk goes on inside. -/
theorem write_of_missing (ordered : Entries.Sorted fields) (h : Entries.find? name fields = none) :
    write value last (name :: parents) fields =
      ((write value last parents []).1,
        Entries.insert name (.object (write value last parents []).2) fields) := by
  have htwice := congrArg Table.entries (Table.insert_insert ⟨fields, ordered⟩ name
    (.object []) (.object (write value last parents []).2))
  simp only [Table.insert] at htwice
  simp [write, h, htwice]

/-- **Step.**  The walk goes on inside a parent that is an object. -/
theorem write_of_object {inner : List (String × Json)}
    (h : Entries.find? name fields = some (.object inner)) :
    write value last (name :: parents) fields =
      ((write value last parents inner).1,
        Entries.insert name (.object (write value last parents inner).2) fields) := by
  simp [write, h]

/-- **Step.**  The walk stops at a parent that is no object. -/
theorem write_of_other {held : Json} (h : Entries.find? name fields = some held)
    (hheld : held.fields? = none) :
    write value last (name :: parents) fields = (false, fields) := by
  match held with
  | .object inner => cases hheld
  | .null | .bool _ | .number _ | .string _ | .array _ => simp [write, h]

end

/-- Setting a value inside an object that is empty is setting it where nothing is. -/
theorem setAt?_object_nil (value : Json) (parents : List String) (last : String) :
    setAt? value (parents ++ [last]) (some (.object [])) =
      setAt? value (parents ++ [last]) none := by
  cases parents with
  | nil => rfl
  | cons name parents =>
    simp only [List.cons_append, setAt?_cons]
    rfl

/-- **Run.**  The walk in place sets the value, or changes nothing. -/
theorem setAt?_eq_write (value : Json) (last : String) (parents : List String)
    {fields : List (String × Json)} (normal : (Json.object fields).Normal) :
    setAt? value (parents ++ [last]) (some (.object fields)) =
        (if (write value last parents fields).1 then some (.object (write value last parents fields).2)
          else none) ∧
      ((write value last parents fields).1 = false → (write value last parents fields).2 = fields) := by
  induction parents generalizing fields with
  | nil => exact ⟨rfl, fun h => by cases h⟩
  | cons name parents ih =>
    obtain ⟨ordered, inside⟩ : Entries.Sorted fields ∧ ∀ field ∈ fields, field.2.Normal := by
      cases normal with
      | object ordered inside => exact ⟨ordered, inside⟩
    have hstep : setAt? value (name :: parents ++ [last]) (some (.object fields)) =
        (setAt? value (parents ++ [last]) (Entries.find? name fields)).map fun inner =>
          .object (Entries.insert name inner fields) := rfl
    rw [hstep]
    cases hfind : Entries.find? name fields with
    | none =>
      rw [write_of_missing ordered hfind]
      have hnormal : (Json.object []).Normal := .object List.Pairwise.nil fun _ h => by cases h
      obtain ⟨hset, -⟩ := ih hnormal
      rw [setAt?_object_nil] at hset
      -- Below a parent that was created nothing is there that could stop the walk.
      have hdone : (write value last parents []).1 = true := by
        cases hwalk : (write value last parents []).1 with
        | true => rfl
        | false =>
          rw [hwalk] at hset
          exact absurd hset (setAt?_missing_ne_none value _)
      rw [hset, hdone]
      exact ⟨rfl, fun h => by cases h⟩
    | some held =>
      cases hheld : held.fields? with
      | none =>
        rw [write_of_other hfind hheld]
        have hnone : setAt? value (parents ++ [last]) (some held) = none :=
          setAt?_eq_none_iff.mpr ⟨[], held, List.nil_prefix, by simp, rfl, hheld⟩
        rw [hnone]
        exact ⟨rfl, fun _ => rfl⟩
      | some inner =>
        obtain rfl := fields?_eq_some_iff.mp hheld
        rw [write_of_object hfind]
        obtain ⟨hset, hkept⟩ := ih (inside _ (Entries.mem_of_find? hfind))
        constructor
        · rw [hset]
          cases (write value last parents inner).1 <;> rfl
        · intro hfailed
          have hsame := congrArg Table.entries
            (Table.insert_of_find? (t := ⟨fields, ordered⟩) hfind)
          rw [hkept hfailed]
          exact hsame

end Json

/-! ### Fields of an object -/

namespace Object

variable {object : Object} {path : List String} {value : Json}

/-- The fields of the body, as one value. -/
def tree (object : Object) : Json := .object object.body.entries

/-- Looking up a field is looking into the body. -/
theorem field?_eq (nonempty : path ≠ []) : object.field? path = Json.at? path object.tree := by
  cases path with
  | nil => exact absurd rfl nonempty
  | cons name path => rfl

/-- Setting a field is setting a value inside the body, and has one failure. -/
theorem setField_eq (object : Object) (value : Json) (nonempty : path ≠ []) :
    (∃ after, object.setField path value = .ok after ∧
        Json.setAt? value path (some object.tree) = some after.tree ∧
        { after with body := object.body } = object) ∨
      (object.setField path value = .error (.invalidPath (".".intercalate path)) ∧
        Json.setAt? value path (some object.tree) = none) := by
  cases path with
  | nil => exact absurd rfl nonempty
  | cons name rest =>
    have hstep : Json.setAt? value (name :: rest) (some object.tree) =
        (Json.setAt? value rest (object.body.find? name)).map fun inner =>
          (object.withField name inner).tree := rfl
    rw [hstep, setField]
    cases Json.setAt? value rest (object.body.find? name) with
    | none => exact .inr ⟨rfl, rfl⟩
    | some inner => exact .inl ⟨object.withField name inner, rfl, rfl, rfl⟩

/-- A path leads nowhere: it is empty, or something on the way to its place is no object. -/
def Blocked (object : Object) (path : List String) : Prop :=
  path = [] ∨ ∃ way held, way ≠ [] ∧ way <+: path ∧ way ≠ path ∧
    object.field? way = some held ∧ held.fields? = none

/-- A value cannot be set inside a body exactly if the path leads nowhere. -/
theorem setAt?_tree_eq_none_iff (value : Json) (nonempty : path ≠ []) :
    Json.setAt? value path (some object.tree) = none ↔ object.Blocked path := by
  rw [Json.setAt?_eq_none_iff]
  constructor
  · rintro ⟨way, held, hway, hne, hfound, hheld⟩
    have hsome : way ≠ [] := by
      rintro rfl
      -- The body itself is an object.
      obtain rfl := Option.some.inj hfound
      cases hheld
    exact .inr ⟨way, held, hsome, hway, hne, (field?_eq hsome).trans hfound, hheld⟩
  · rintro (hnil | ⟨way, held, hsome, hway, hne, hfound, hheld⟩)
    · exact absurd hnil nonempty
    · exact ⟨way, held, hway, hne, (field?_eq hsome).symm.trans hfound, hheld⟩

/-- What an object is after `value` was set at a path: the value is there, objects lead to it, every
    place that is neither on the way nor below is as before, and so is all that is no body. -/
structure Assigned (before : Object) (path : List String) (value : Json) (after : Object) : Prop where
  found : after.field? path = some value
  way : ∀ way, way ≠ [] → way <+: path → way ≠ path →
    ∃ fields, after.field? way = some (.object fields)
  others : ∀ other, ¬ other <+: path → ¬ path <+: other →
    after.field? other = before.field? other
  envelope : { after with body := before.body } = before

/-- What was written inside the body is assigned. -/
theorem assigned_of_written {after : Object} (nonempty : path ≠ [])
    (written : Json.Written value path (some object.tree) after.tree)
    (envelope : { after with body := object.body } = object) :
    object.Assigned path value after where
  found := (field?_eq nonempty).trans written.found
  way := fun way hsome hway hne => by
    rw [field?_eq hsome]
    exact written.way way hway hne
  others := fun other hbefore hafter => by
    have hsome : other ≠ [] := by
      rintro rfl
      exact hbefore List.nil_prefix
    rw [field?_eq hsome, field?_eq hsome]
    exact written.others other hbefore hafter
  envelope := envelope

/-! ### Setting a field in place -/

/-- The walk that sets a field in place, with how it ends and the object that it leaves. -/
def assign (path : List String) (value : Json) (object : Object) :
    Except SchemaError Unit × Object :=
  match path.getLast? with
  | none => (.error (.invalidPath ""), object)
  | some last =>
    let walk := Json.write value last path.dropLast object.body.entries
    (if walk.1 then .ok () else .error (.invalidPath (".".intercalate path)),
      { object with body := .ofList walk.2 })

/-- Whether every value in the body has its fields in order. -/
def Ordered (object : Object) : Prop := ∀ field ∈ object.body.entries, field.2.Normal

/-- Setting a field to a value that is in order keeps the body in order, so that fields can be set one
    after the other. -/
theorem Ordered.setField (ordered : object.Ordered) (normal : value.Normal) {after : Object}
    (h : object.setField path value = .ok after) : after.Ordered := by
  have htree : object.tree.Normal := .object object.body.sorted ordered
  by_cases hnil : path = []
  · subst hnil
    cases h
  rcases setField_eq object value hnil with ⟨set, hset, hwritten, -⟩ | ⟨herror, -⟩
  · obtain rfl := Except.ok.inj (hset.symm.trans h)
    have hafter : set.tree.Normal := by
      refine Json.normal_of_setAt? normal (fun held hheld => ?_) hwritten
      obtain rfl := Option.some.inj hheld
      exact htree
    cases hafter with
    | object _ inside => exact inside
  · rw [herror] at h
    cases h

/-- **In place.**  The walk sets the field, or leaves the object as it was. -/
theorem assign_eq (ordered : object.Ordered) (path : List String) (value : Json) :
    object.assign path value =
      match object.setField path value with
      | .ok after => (.ok (), after)
      | .error problem => (.error problem, object) := by
  rcases List.eq_nil_or_concat path with rfl | ⟨parents, last, rfl⟩
  · rfl
  · rw [List.concat_eq_append]
    have hnonempty : parents ++ [last] ≠ [] := List.concat_ne_nil last parents
    have hnormal : object.tree.Normal := .object object.body.sorted ordered
    obtain ⟨hset, hkept⟩ := Json.setAt?_eq_write value last parents hnormal
    have hwalk : object.assign (parents ++ [last]) value =
        (if (Json.write value last parents object.body.entries).1 then .ok ()
          else .error (.invalidPath (".".intercalate (parents ++ [last]))),
        { object with body := .ofList (Json.write value last parents object.body.entries).2 }) := by
      simp [assign]
    rw [hwalk]
    rcases setField_eq object value hnonempty with
      ⟨after, hafter, htree, henvelope⟩ | ⟨herror, hnone⟩
    · rw [hafter]
      have hboth := hset.symm.trans htree
      cases hdone : (Json.write value last parents object.body.entries).1 with
      | false =>
        rw [hdone] at hboth
        cases hboth
      | true =>
        rw [hdone] at hboth
        have hentries : (Json.write value last parents object.body.entries).2 = after.body.entries := by
          simpa [tree] using hboth
        have hbody : { object with body := after.body } = after := by rw [← henvelope]
        rw [hentries, Table.ofList_entries, hbody]
        rfl
    · rw [herror]
      have hboth := hset.symm.trans hnone
      cases hdone : (Json.write value last parents object.body.entries).1 with
      | false =>
        rw [hkept hdone, Table.ofList_entries]
        rfl
      | true =>
        rw [hdone] at hboth
        cases hboth

/-- A field is set, or the path leads nowhere and is named by the failure. -/
theorem setField_cases (object : Object) (path : List String) (value : Json) :
    (∃ after, object.setField path value = .ok after ∧ ¬ object.Blocked path ∧
        object.Assigned path value after) ∨
      (object.setField path value = .error (.invalidPath (".".intercalate path)) ∧
        object.Blocked path) := by
  by_cases hnil : path = []
  · subst hnil
    exact .inr ⟨rfl, .inl rfl⟩
  rcases setField_eq object value hnil with
    ⟨after, hafter, htree, henvelope⟩ | ⟨herror, hnone⟩
  · have hfree : ¬ object.Blocked path := by
      rw [← setAt?_tree_eq_none_iff value hnil, htree]
      exact Option.some_ne_none _
    exact .inl ⟨after, hafter, hfree,
      assigned_of_written hnil (Json.written_of_setAt? htree) henvelope⟩
  · exact .inr ⟨herror, (setAt?_tree_eq_none_iff value hnil).mp hnone⟩

/-- **Setting a field** of an object fails exactly if the path leads nowhere, and otherwise changes
    that field alone.  The walk that sets it in place leaves the object as it was where it fails. -/
theorem setField_atomic (object : Object) (path : List String) (value : Json) :
    ((∃ problem, object.setField path value = .error problem) ↔ object.Blocked path) ∧
      (∀ problem, object.setField path value = .error problem →
        problem = .invalidPath (".".intercalate path)) ∧
      (∀ after, object.setField path value = .ok after → object.Assigned path value after) ∧
      (object.Ordered → object.assign path value =
        match object.setField path value with
        | .ok after => (.ok (), after)
        | .error problem => (.error problem, object)) := by
  refine ⟨?_, ?_, ?_, fun ordered => assign_eq ordered path value⟩
  all_goals
    rcases setField_cases object path value with
      ⟨set, hset, hfree, hassigned⟩ | ⟨herror, hblocked⟩
  · rw [hset]
    exact iff_of_false (fun ⟨_, h⟩ => by cases h) hfree
  · exact iff_of_true ⟨_, herror⟩ hblocked
  · intro problem h
    rw [hset] at h
    cases h
  · intro problem h
    exact (Except.error.inj (herror.symm.trans h)).symm
  · intro after h
    obtain rfl := Except.ok.inj (hset.symm.trans h)
    exact hassigned
  · intro after h
    rw [herror] at h
    cases h

/-- A text is no parent of a field, and stays as it is. -/
theorem assign_below_text :
    ((ofKey ⟨"", "v1", "Report"⟩ ⟨none, ⟨"report"⟩⟩).withField "spec" (.string "scalar")).assign
        ["spec", "nested"] .null =
      (.error (.invalidPath "spec.nested"),
        (ofKey ⟨"", "v1", "Report"⟩ ⟨none, ⟨"report"⟩⟩).withField "spec" (.string "scalar")) := by
  have hordered : ((ofKey ⟨"", "v1", "Report"⟩ ⟨none, ⟨"report"⟩⟩).withField "spec"
      (.string "scalar")).Ordered := by
    intro field hfield
    rcases Entries.mem_insert hfield with rfl | hempty
    · exact .string "scalar"
    · cases hempty
  obtain ⟨-, -, -, hplace⟩ := setField_atomic _ ["spec", "nested"] .null
  exact hplace hordered

/-- A parent that is missing is created. -/
example : ((ofKey ⟨"", "v1", "Report"⟩ ⟨none, ⟨"report"⟩⟩).assign ["status", "count"]
    (.ofNat 12)).2.field? ["status"] = some (.object [("count", .ofNat 12)]) := by
  decide

end Object

end Reconciliation
