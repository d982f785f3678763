import Reconciliation.Proofs.Text.Cut
import Reconciliation.Proofs.Text.Percent
import Reconciliation.Wire.Client

namespace Reconciliation.Wire

/-!
# Addresses that are written and read back

* `queryText`, `target` — a query as it is written, and a path with its query;
* `splitQuery_target` — path and query are read back;
* `Segment`, `Routable` — what a path is written of, so that it can be read back;
* `parse_collectionPath`, `parse_objectPath` — the route of a path that was written.
-/

/-! ### Queries -/

/-- A pair of a query as it is written. -/
def pairText (pair : String × String) : String := pair.1 ++ "=" ++ Text.percentEncode pair.2

/-- A query as it is written. -/
def queryText (query : List (String × String)) : String := "&".intercalate (query.map pairText)

/-- A path with the query that follows it. -/
def target (path : String) (query : List (String × String)) : String :=
  match query with
  | [] => path
  | _ => path ++ "?" ++ queryText query

/-- The names of a query need no encoding. -/
def Named (query : List (String × String)) : Prop :=
  ∀ pair ∈ query, Text.percentEncode pair.1 = pair.1

/-- A character that is not plain does not occur in an encoded text. -/
theorem not_mem_percentEncode {c : Char} (hascii : c.toNat < 0x80)
    (hplain : Text.isPlain (UInt8.ofNat c.toNat) = false) (hpercent : c ≠ '%') (text : String) :
    c ∉ (Text.percentEncode text).toList := by
  rw [Text.mem_toList_iff_mem_bytes hascii]
  intro hmem
  rcases Text.isPlain_of_mem_percentEncode hmem with h | h
  · rw [hplain] at h
    cases h
  · have hvalue : c.toNat = 0x25 := by
      rw [← Text.toNat_byte (show c.toNat < 0x100 by omega), h]
      rfl
    apply hpercent
    rw [← Char.ofNat_toNat c, hvalue]

/-- What a pair may not hold is neither in its name nor in its value. -/
theorem not_mem_pairText {c : Char} (hascii : c.toNat < 0x80)
    (hplain : Text.isPlain (UInt8.ofNat c.toNat) = false) (hpercent : c ≠ '%') (hequals : c ≠ '=')
    {pair : String × String} (hname : Text.percentEncode pair.1 = pair.1) :
    c ∉ (pairText pair).toList := by
  have hbefore : c ∉ pair.1.toList := hname ▸ not_mem_percentEncode hascii hplain hpercent pair.1
  have hafter := not_mem_percentEncode hascii hplain hpercent pair.2
  simp [pairText, hbefore, hafter, hequals]

/-- A query is read back. -/
theorem formPairs_queryText {query : List (String × String)} (hne : query ≠ [])
    (hnamed : Named query) : Text.formPairs (queryText query) = query := by
  have hcut : Text.cutAll '&' (queryText query) = query.map pairText := by
    refine Text.cutAll_intercalate (by simpa using hne) fun part hpart => ?_
    obtain ⟨pair, hpair, rfl⟩ := List.mem_map.mp hpart
    exact not_mem_pairText (by decide) (by with_unfolding_all rfl) (by decide) (by decide)
      (hnamed pair hpair)
  -- No piece is empty, since each holds an equals sign.
  have hfilter : (query.map pairText).filter (fun piece => !piece.isEmpty) = query.map pairText := by
    rw [List.filter_eq_self]
    intro part hpart
    obtain ⟨pair, _, rfl⟩ := List.mem_map.mp hpart
    simp [pairText]
  rw [Text.formPairs, hcut, hfilter, List.map_map]
  refine (List.map_congr_left fun pair hpair => ?_).trans (List.map_id _)
  have hname := hnamed pair hpair
  have hequals : '=' ∉ pair.1.toList := hname ▸ not_mem_percentEncode (by decide)
    (by with_unfolding_all rfl) (by decide) pair.1
  have hpair : Text.cutFirst? '=' (pairText pair) = some (pair.1, Text.percentEncode pair.2) :=
    Text.cutFirst?_of_toList (by simp [pairText]) hequals
  have hread : Text.formDecode pair.1 = pair.1 := by
    rw [← hname, Text.formDecode_percentEncode, hname]
  simp only [Function.comp_apply, hpair, hread, Text.formDecode_percentEncode, id]

/-- Path and query are read back. -/
theorem splitQuery_target {path : String} {query : List (String × String)}
    (hpath : '?' ∉ path.toList) (hnamed : Named query) :
    splitQuery (target path query) = (path, query) := by
  cases query with
  | nil => rw [target, splitQuery, Text.cutFirst?_of_not_mem hpath]
  | cons pair rest =>
    have hcut : Text.cutFirst? '?' (target path (pair :: rest)) =
        some (path, queryText (pair :: rest)) :=
      Text.cutFirst?_of_toList (by simp [target]) hpath
    rw [splitQuery, hcut]
    dsimp only
    rw [formPairs_queryText (List.cons_ne_nil _ _) hnamed]

/-- What is added to a base address that has neither query nor fragment. -/
theorem addressWith_append {base path : String} {query : List (String × String)}
    (hquery : '?' ∉ base.toList ∧ '?' ∉ path.toList)
    (hfragment : '#' ∉ base.toList ∧ '#' ∉ path.toList) :
    addressWith (base ++ path) query = base ++ target path query := by
  have hcut : Text.cutFirst? '#' (base ++ path) = none :=
    Text.cutFirst?_of_not_mem (by simp [hfragment])
  have hnone : (base ++ path).toList.contains '?' = false := by simp [hquery]
  unfold addressWith
  rw [hcut, Option.elim_none]
  cases query with
  | nil => rfl
  | cons pair rest =>
    dsimp only [target]
    rw [hnone, String.append_assoc, String.append_assoc, String.append_assoc]
    rfl

/-! ### Routes -/

/-- A text that may stand between two slashes of a path: it is not empty and holds no character that
    divides an address or escapes in it. -/
structure Segment (text : String) : Prop where
  nonempty : text ≠ ""
  slash : '/' ∉ text.toList
  percent : '%' ∉ text.toList
  query : '?' ∉ text.toList

/-- What the path of a type is written of. -/
structure Routable (group version kind segment : String) : Prop where
  notCore : group ≠ coreGroup
  group : group ≠ "" → Segment group
  version : Segment version
  kind : Segment kind
  segment : Segment segment

/-- The segment of a group. -/
def groupSegment (group : String) : String := if group.isEmpty then coreGroup else group

/-- The path of a type, as a start and its segments. -/
theorem collectionPath_eq (group version kind segment : String) :
    collectionPath group version kind segment =
      "/resources/" ++
        (String.singleton '/').intercalate [groupSegment group, version, kind, segment] := by
  rw [collectionPath, String.intercalate_cons_cons]
  rfl

/-- The path of an object, as a start and its segments. -/
theorem objectPath_eq (group version kind : String) (key : Key) :
    objectPath group version kind key =
      "/resources/" ++ (String.singleton '/').intercalate
        [groupSegment group, version, kind, key.scope.elim noNamespace (·.text), key.name.text] := by
  have hjoin := String.intercalate_append_of_ne_nil (s := String.singleton '/')
    (List.cons_ne_nil (groupSegment group) [version, kind, key.scope.elim noNamespace (·.text)])
    (List.cons_ne_nil key.name.text [])
  rw [String.intercalate_singleton, String.append_assoc] at hjoin
  rw [objectPath, collectionPath_eq, String.append_assoc, String.append_assoc]
  exact congrArg ("/resources/" ++ ·) hjoin.symm

/-- The route of some segments. -/
def routeOf : List String → Option Route
  | [group, version, kind, segment] => Route.parse.route group version kind segment none
  | [group, version, kind, segment, name] =>
    Route.parse.route group version kind segment (some name)
  | _ => none

/-- The segments of a path are read back. -/
theorem parse_segments {segments : List String} (hne : segments ≠ [])
    (hsegments : ∀ segment ∈ segments, Segment segment) :
    Route.parse ("/resources/" ++ (String.singleton '/').intercalate segments) =
      routeOf segments := by
  have hcut : Text.cutAll '/' ((String.singleton '/').intercalate segments) = segments :=
    Text.cutAll_intercalate hne fun segment hmem => (hsegments segment hmem).slash
  have hdecode : segments.map Text.percentDecode = segments :=
    (List.map_congr_left fun segment hmem =>
      Text.percentDecode_eq_self (hsegments segment hmem).percent).trans (List.map_id _)
  have hfull : segments.any (·.isEmpty) = false := by
    rw [List.any_eq_false]
    intro segment hmem
    simpa using (hsegments segment hmem).nonempty
  unfold Route.parse
  rw [Text.after?_append]
  simp only [Option.bind_eq_bind, Option.bind_some, hcut, hdecode, hfull, Bool.false_eq_true,
    if_false]
  rfl

/-- The segment of a group stands for that group. -/
theorem groupSegment_spec {group : String} (hcore : group ≠ coreGroup)
    (hgroup : group ≠ "" → Segment group) :
    Segment (groupSegment group) ∧
      (if groupSegment group = coreGroup then "" else groupSegment group) = group := by
  unfold groupSegment
  by_cases hempty : group = ""
  · subst hempty
    exact ⟨⟨by decide, by decide, by decide, by decide⟩, rfl⟩
  · have hfalse : group.isEmpty = false := by simpa using hempty
    rw [hfalse]
    exact ⟨hgroup hempty, if_neg hcore⟩

/-- The route of the path of a type. -/
theorem parse_collectionPath {group version kind segment : String}
    (h : Routable group version kind segment) :
    Route.parse (collectionPath group version kind segment) =
      some ⟨group, version, kind, segment, none⟩ := by
  obtain ⟨hsegment, hback⟩ := groupSegment_spec h.notCore h.group
  rw [collectionPath_eq, parse_segments (List.cons_ne_nil _ _) ?_]
  · simp only [routeOf, Route.parse.route, hback]
  · simp only [List.mem_cons, List.not_mem_nil, or_false]
    rintro part (rfl | rfl | rfl | rfl)
    · exact hsegment
    · exact h.version
    · exact h.kind
    · exact h.segment

/-- The route of the path of an object. -/
theorem parse_objectPath {group version kind : String} {key : Key}
    (h : Routable group version kind (key.scope.elim noNamespace (·.text)))
    (hname : Segment key.name.text) :
    Route.parse (objectPath group version kind key) =
      some ⟨group, version, kind, key.scope.elim noNamespace (·.text), some key.name.text⟩ := by
  obtain ⟨hsegment, hback⟩ := groupSegment_spec h.notCore h.group
  rw [objectPath_eq, parse_segments (List.cons_ne_nil _ _) ?_]
  · simp only [routeOf, Route.parse.route, hback]
  · simp only [List.mem_cons, List.not_mem_nil, or_false]
    rintro part (rfl | rfl | rfl | rfl | rfl)
    · exact hsegment
    · exact h.version
    · exact h.kind
    · exact h.segment
    · exact hname

end Reconciliation.Wire
