import Reconciliation.Json.Decode
import Reconciliation.Proofs.Json.Digits

namespace Reconciliation.Json

/-!
# Values that are read back from their lines

What the reader makes of a value that was written with one item or field a line:

* `Integral` — values whose numbers are whole numbers in reach;
* `tokens` — the tokens of a value, in front of others;
* `Token.ofBytes_prettyFrom` — the lines of a value are cut into its tokens;
* `Document.ofTokensFrom_tokens` — the tokens of a value are put together to its tree;
* `ofText_pretty` — a decoder reads the lines of a value as it reads the tree of the value.

The margins of the lines are blanks between tokens.  A value is always followed by a comma, the end of its
line or the end of the text, so that a number at its end goes no further.
-/

/-- A value in which every number is a whole number in reach. -/
inductive Integral : Json → Prop
  | null : Integral .null
  | bool (value : Bool) : Integral (.bool value)
  | number {value : Number} (reach : value.InReach) : Integral (.number value)
  | string (text : String) : Integral (.string text)
  | array {items : List Json} (inside : ∀ item ∈ items, Integral item) : Integral (.array items)
  | object {fields : List (String × Json)} (inside : ∀ field ∈ fields, Integral field.2) :
      Integral (.object fields)

mutual

/-- The tokens of a value, in front of others. -/
def tokens : Json → List Token → List Token
  | .null, tail => .literal .null :: tail
  | .bool value, tail => .literal (.bool value) :: tail
  | .number value, tail => .number (.ok value) :: tail
  | .string text, tail => .string (.ok text) :: tail
  | .array items, tail => .openArray :: itemTokens items (.closeArray :: tail)
  | .object fields, tail => .openObject :: fieldTokens fields (.closeObject :: tail)

/-- The tokens of items, with commas between them, in front of others. -/
def itemTokens : List Json → List Token → List Token
  | [], tail => tail
  | [item], tail => tokens item tail
  | item :: rest, tail => tokens item (.comma :: itemTokens rest tail)

/-- The tokens of fields, with commas between them, in front of others. -/
def fieldTokens : List (String × Json) → List Token → List Token
  | [], tail => tail
  | [(name, value)], tail => .string (.ok name) :: .colon :: tokens value tail
  | (name, value) :: rest, tail =>
    .string (.ok name) :: .colon :: tokens value (.comma :: fieldTokens rest tail)

end

theorem itemTokens_cons (item next : Json) (others : List Json) (tail : List Token) :
    itemTokens (item :: next :: others) tail =
      tokens item (.comma :: itemTokens (next :: others) tail) := rfl

theorem fieldTokens_cons (name : String) (value : Json) (next : String × Json)
    (others : List (String × Json)) (tail : List Token) :
    fieldTokens ((name, value) :: next :: others) tail =
      .string (.ok name) :: .colon :: tokens value (.comma :: fieldTokens (next :: others) tail) := rfl

/-! ### From lines to tokens -/

namespace Token

/-- Spaces between tokens are passed over. -/
theorem ofBytes_spaces {spaces : List UInt8} (h : spaces.all isSpace = true) (rest : List UInt8) :
    ofBytes (spaces ++ rest) = ofBytes rest := by
  induction spaces with
  | nil => rfl
  | cons byte others ih =>
    rw [List.all_cons, Bool.and_eq_true] at h
    obtain ⟨hbyte, hothers⟩ := h
    rw [List.cons_append, ofBytes, if_pos hbyte, ih hothers]

/-- A mark of one byte is a token. -/
theorem ofBytes_mark {byte : UInt8} {token : Token} (space : isSpace byte = false)
    (starts : ∀ rest, startingWith byte rest = (token, 0)) (rest : List UInt8) :
    ofBytes (byte :: rest) = token :: ofBytes rest :=
  ofBytes_cons space (starts rest)

/-- A literal that is spelt out is a token. -/
theorem ofBytes_literal {byte : UInt8} {spelling : List UInt8} {value : Json}
    (space : isSpace byte = false)
    (starts : ∀ rest, startingWith byte rest = ofLiteral spelling value rest) (rest : List UInt8) :
    ofBytes (byte :: (spelling ++ rest)) = literal value :: ofBytes rest := by
  have hliteral : startingWith byte (spelling ++ rest) = (literal value, spelling.length) := by
    rw [starts, ofLiteral, if_pos (List.isPrefixOf_iff_prefix.mpr (List.prefix_append ..))]
  rw [ofBytes_cons space hliteral, List.drop_left]

/-- A text of spaces. -/
def Blank (text : String) : Prop := (Text.bytes text).all isSpace = true

theorem Blank.append {text more : String} (h : Blank text) (hmore : Blank more) : Blank (text ++ more) := by
  rw [Blank, Text.bytes_append, List.all_append, h, hmore]
  rfl

theorem blank_indent : Blank "  " := by
  rw [Blank, Text.bytes_eq]
  decide

/-- What begins with a mark ends a number before it, unless the mark could go on the number. -/
theorem ends_cons {byte : UInt8} {rest : List UInt8}
    (h : ¬ Numeral.isDigit byte ∧ byte ≠ 0x2e ∧ byte ≠ 0x65 ∧ byte ≠ 0x45) : Ends (byte :: rest) := by
  intro first hfirst
  obtain rfl : byte = first := Option.some.inj hfirst
  exact h

/-- **Lines.**  Lines between brackets are cut into the brackets and what the lines are cut into. -/
theorem ofBytes_encloseLines {opening closing margin : String} {first last : UInt8} {begins ends : Token}
    {parts : List String} {inside : List Token → List Token}
    (opens : Text.bytes opening = [first] ∧ ∀ rest, ofBytes (first :: rest) = begins :: ofBytes rest)
    (closes : Text.bytes closing = [last] ∧ ∀ rest, ofBytes (last :: rest) = ends :: ofBytes rest)
    (stops : ∀ rest, Ends (last :: rest)) (blank : Blank margin)
    (reads : ∀ rest, Ends rest →
      ofBytes (Text.bytes (",\n".intercalate (parts.map fun part => margin ++ "  " ++ part)) ++ rest) =
        inside (ofBytes rest)) (rest : List UInt8) :
    ofBytes (Text.bytes (encloseLines opening closing margin parts) ++ rest) =
      begins :: inside (ends :: ofBytes rest) := by
  have hempty : Text.bytes "" = [] := by rw [Text.bytes_eq]; rfl
  have hline : Text.bytes "\n" = [0x0a] := by rw [Text.bytes_eq]; rfl
  cases parts with
  | nil =>
    have hnothing := reads (last :: rest) (stops rest)
    rw [List.map_nil, String.intercalate_nil, hempty, List.nil_append, closes.2] at hnothing
    have htext : Text.bytes (encloseLines opening closing margin []) ++ rest = first :: last :: rest := by
      rw [encloseLines, Text.bytes_append, opens.1, closes.1]
      rfl
    rw [htext, opens.2, closes.2]
    exact congrArg (begins :: ·) hnothing
  | cons part others =>
    have hnewline : Ends (0x0a :: (Text.bytes margin ++ last :: rest)) := ends_cons (by decide)
    have htext : Text.bytes (encloseLines opening closing margin (part :: others)) ++ rest =
        first :: ([0x0a] ++ (Text.bytes (",\n".intercalate
          ((part :: others).map fun part => margin ++ "  " ++ part)) ++
            (0x0a :: (Text.bytes margin ++ last :: rest)))) := by
      simp only [encloseLines, Text.bytes_append, opens.1, closes.1, hline, List.append_assoc,
        List.cons_append, List.nil_append]
    have hafter : ofBytes (0x0a :: (Text.bytes margin ++ last :: rest)) = ends :: ofBytes rest := by
      rw [← closes.2 rest, ← ofBytes_spaces blank (last :: rest)]
      exact ofBytes_spaces (show [0x0a].all isSpace = true by decide) _
    rw [htext, opens.2, ofBytes_spaces (by decide), reads _ hnewline, hafter]

/-- A line is cut into what its part is cut into. -/
theorem ofBytes_line {margin part : String} {inside : List Token → List Token} (blank : Blank margin)
    (reads : ∀ {rest}, Ends rest → ofBytes (Text.bytes part ++ rest) = inside (ofBytes rest))
    {rest : List UInt8} (ends : Ends rest) :
    ofBytes (Text.bytes (",\n".intercalate ([part].map (margin ++ ·))) ++ rest) = inside (ofBytes rest) := by
  rw [List.map_singleton, String.intercalate_singleton, Text.bytes_append, List.append_assoc,
    ofBytes_spaces blank, reads ends]

/-- Between a line and the next ones there is a comma. -/
theorem ofBytes_lines {margin part : String} {parts : List String} (inside : List Token → List Token)
    (more : parts ≠ []) (blank : Blank margin)
    (reads : ∀ {rest}, Ends rest → ofBytes (Text.bytes part ++ rest) = inside (ofBytes rest))
    (rest : List UInt8) :
    ofBytes (Text.bytes (",\n".intercalate ((part :: parts).map (margin ++ ·))) ++ rest) =
      inside (comma ::
        ofBytes (Text.bytes (",\n".intercalate (parts.map (margin ++ ·))) ++ rest)) := by
  have hcomma : Text.bytes ",\n" = 0x2c :: [0x0a] := by rw [Text.bytes_eq]; rfl
  have hmark (others : List UInt8) : ofBytes (0x2c :: others) = comma :: ofBytes others :=
    ofBytes_mark (by decide) (fun _ => rfl) others
  rw [List.map_cons, String.intercalate_cons_of_ne_nil (by simpa using more), Text.bytes_append,
    Text.bytes_append, Text.bytes_append, hcomma, List.append_assoc, List.append_assoc, List.append_assoc,
    ofBytes_spaces blank, List.cons_append, reads (ends_cons (by decide)), hmark,
    ofBytes_spaces (by decide)]

/-- A field is cut into its name, a colon and its value. -/
theorem ofBytes_field (name : String) {text : String} {inside : List Token → List Token}
    (reads : ∀ {rest}, Ends rest → ofBytes (Text.bytes text ++ rest) = inside (ofBytes rest))
    {rest : List UInt8} (ends : Ends rest) :
    ofBytes (Text.bytes (quote name ++ ": " ++ text) ++ rest) =
      string (.ok name) :: colon :: inside (ofBytes rest) := by
  have hcolon : Text.bytes ": " = 0x3a :: [0x20] := by rw [Text.bytes_eq]; rfl
  have hmark (others : List UInt8) : ofBytes (0x3a :: others) = colon :: ofBytes others :=
    ofBytes_mark (by decide) (fun _ => rfl) others
  rw [Text.bytes_append, Text.bytes_append, hcolon, List.append_assoc, List.append_assoc, ofBytes_quote,
    List.cons_append, hmark, ofBytes_spaces (by decide), reads ends]

mutual

/-- The lines of a value are cut into its tokens. -/
theorem ofBytes_prettyFrom {margin : String} (blank : Blank margin) :
    ∀ {value : Json}, value.Integral → ∀ {rest : List UInt8}, Ends rest →
      ofBytes (Text.bytes (prettyFrom margin value) ++ rest) = tokens value (ofBytes rest)
  | .null, _, rest, _ => by
    have htext : Text.bytes "null" = 0x6e :: Text.bytes "ull" := by
      rw [Text.bytes_eq, Text.bytes_eq]
      rfl
    rw [prettyFrom, compact, htext]
    exact ofBytes_literal (by decide) (fun _ => rfl) rest
  | .bool true, _, rest, _ => by
    have htext : Text.bytes "true" = 0x74 :: Text.bytes "rue" := by
      rw [Text.bytes_eq, Text.bytes_eq]
      rfl
    rw [prettyFrom, compact, htext]
    exact ofBytes_literal (by decide) (fun _ => rfl) rest
  | .bool false, _, rest, _ => by
    have htext : Text.bytes "false" = 0x66 :: Text.bytes "alse" := by
      rw [Text.bytes_eq, Text.bytes_eq]
      rfl
    rw [prettyFrom, compact, htext]
    exact ofBytes_literal (by decide) (fun _ => rfl) rest
  | .number value, h, rest, ends => by
    rw [prettyFrom, compact, tokens]
    cases h with
    | number reach => exact ofBytes_number reach ends
  | .string text, _, rest, _ => by
    rw [prettyFrom, compact, tokens]
    exact ofBytes_quote text rest
  | .array items, h, rest, _ => by
    have hinside : ∀ item ∈ items, Integral item := by
      cases h with
      | array inside => exact inside
    rw [prettyFrom, tokens]
    exact ofBytes_encloseLines ⟨by rw [Text.bytes_eq]; rfl, ofBytes_mark (by decide) fun _ => rfl⟩
      ⟨by rw [Text.bytes_eq]; rfl, ofBytes_mark (by decide) fun _ => rfl⟩
      (fun _ => ends_cons (by decide)) blank
      (fun _ => ofBytes_prettyItems (blank.append blank_indent) hinside) rest
  | .object fields, h, rest, _ => by
    have hinside : ∀ field ∈ fields, Integral field.2 := by
      cases h with
      | object inside => exact inside
    rw [prettyFrom, tokens]
    exact ofBytes_encloseLines ⟨by rw [Text.bytes_eq]; rfl, ofBytes_mark (by decide) fun _ => rfl⟩
      ⟨by rw [Text.bytes_eq]; rfl, ofBytes_mark (by decide) fun _ => rfl⟩
      (fun _ => ends_cons (by decide)) blank
      (fun _ => ofBytes_prettyFields (blank.append blank_indent) hinside) rest

theorem ofBytes_prettyItems {margin : String} (blank : Blank margin) :
    ∀ {items : List Json}, (∀ item ∈ items, Integral item) → ∀ {rest : List UInt8}, Ends rest →
      ofBytes (Text.bytes (",\n".intercalate ((prettyItems margin items).map (margin ++ ·))) ++ rest) =
        itemTokens items (ofBytes rest)
  | [], _, rest, _ => by
    rw [prettyItems, List.map_nil, String.intercalate_nil, Text.bytes_eq]
    rfl
  | [item], h, rest, ends =>
    ofBytes_line blank (ofBytes_prettyFrom blank (h item List.mem_cons_self)) ends
  | item :: next :: others, h, rest, ends => by
    have hitem {rest : List UInt8} (ends : Ends rest) :=
      ofBytes_prettyFrom blank (h item List.mem_cons_self) ends
    have hrest := ofBytes_prettyItems blank (fun other hother => h other (.tail _ hother)) ends
    have hmore : prettyItems margin (next :: others) ≠ [] := List.cons_ne_nil _ _
    rw [prettyItems, ofBytes_lines (tokens item) hmore blank hitem, hrest, itemTokens_cons]

theorem ofBytes_prettyFields {margin : String} (blank : Blank margin) :
    ∀ {fields : List (String × Json)}, (∀ field ∈ fields, Integral field.2) →
      ∀ {rest : List UInt8}, Ends rest →
      ofBytes (Text.bytes (",\n".intercalate ((prettyFields margin fields).map (margin ++ ·))) ++ rest) =
        fieldTokens fields (ofBytes rest)
  | [], _, rest, _ => by
    rw [prettyFields, List.map_nil, String.intercalate_nil, Text.bytes_eq]
    rfl
  | [(name, value)], h, rest, ends =>
    ofBytes_line blank
      (ofBytes_field name (ofBytes_prettyFrom blank (h (name, value) List.mem_cons_self))) ends
  | (name, value) :: (label, next) :: others, h, rest, ends => by
    have hfield {rest : List UInt8} (ends : Ends rest) :
        ofBytes (Text.bytes (quote name ++ ": " ++ prettyFrom margin value) ++ rest) =
          string (.ok name) :: colon :: tokens value (ofBytes rest) :=
      ofBytes_field name (ofBytes_prettyFrom blank (h (name, value) List.mem_cons_self)) ends
    have hrest := ofBytes_prettyFields blank (fun other hother => h other (.tail _ hother)) ends
    have hmore : prettyFields margin ((label, next) :: others) ≠ [] := List.cons_ne_nil _ _
    rw [prettyFields, ofBytes_lines (fun tail => string (.ok name) :: colon :: tokens value tail) hmore
      blank hfield, hrest, fieldTokens_cons]

end

end Token

/-! ### From tokens to the tree -/

namespace Document

/-- How the reading goes on when a value is complete: it stands in the innermost frame, or is the whole
    document. -/
def resume (frames : List Frame) (document : Document) (tail : List Token) : Document × List Token :=
  match State.put frames document with
  | .next s => ofTokensFrom s tail
  | .finished whole => (whole, tail)
  | .broken begun reason => (State.breakOff begun reason ⟨.separator, frames⟩, tail)

/-- A token that completes a value. -/
theorem ofTokensFrom_put {s : State} {token : Token} {frames : List Frame} {document : Document}
    (h : s.step token = State.put frames document) (tail : List Token) :
    ofTokensFrom s (token :: tail) = resume frames document tail := by
  rw [ofTokensFrom, h, resume]
  match frames with
  | [] => rfl
  | .array _ :: _ => rfl
  | .object _ (some _) :: _ => rfl
  | .object _ none :: _ => rfl

/-- A token after which the reading goes on. -/
theorem ofTokensFrom_next {s s' : State} {token : Token} (h : s.step token = .next s')
    (tail : List Token) : ofTokensFrom s (token :: tail) = ofTokensFrom s' tail := by
  rw [ofTokensFrom, h]

/-- After a comma in an array the next item starts. -/
theorem ofTokensFrom_nextItem (items : List Document) (frames : List Frame) (tail : List Token) :
    ofTokensFrom ⟨.separator, .array items :: frames⟩ (.comma :: tail) =
      ofTokensFrom ⟨.value, .array items :: frames⟩ tail := ofTokensFrom_next rfl tail

/-- After a comma in an object the next name starts. -/
theorem ofTokensFrom_nextField (fields : List (Except Category String × Document)) (frames : List Frame)
    (tail : List Token) :
    ofTokensFrom ⟨.separator, .object fields none :: frames⟩ (.comma :: tail) =
      ofTokensFrom ⟨.nextName, .object fields none :: frames⟩ tail := ofTokensFrom_next rfl tail

/-- Where a value may start. -/
def StartsValue (place : Place) : Prop := place = .value ∨ place = .firstItem

theorem step_value {place : Place} (start : StartsValue place) (frames : List Frame) {token : Token}
    (h : token ≠ .closeArray) : State.step ⟨place, frames⟩ token = State.startValue frames token := by
  rcases start with rfl | rfl
  · rfl
  · cases token with
    | closeArray => exact absurd rfl h
    | _ => rfl

/-- Where a name may start. -/
def StartsName (place : Place) : Prop := place = .firstName ∨ place = .nextName

/-- A name and a colon, after which the value of the field starts. -/
theorem ofTokensFrom_name {place : Place} (start : StartsName place)
    (fields : List (Except Category String × Document)) (frames : List Frame) (name : String)
    (tail : List Token) :
    ofTokensFrom ⟨place, .object fields none :: frames⟩ (.string (.ok name) :: .colon :: tail) =
      ofTokensFrom ⟨.value, .object fields (some (.ok name)) :: frames⟩ tail := by
  have hname : State.step ⟨place, .object fields none :: frames⟩ (.string (.ok name)) =
      .next ⟨.colon, .object fields (some (.ok name)) :: frames⟩ := by
    rcases start with rfl | rfl <;> rfl
  rw [ofTokensFrom_next hname, ofTokensFrom_next rfl]

mutual

/-- **Trees.**  Where a value may start, the tokens of a value are put together to its tree. -/
theorem ofTokensFrom_tokens : ∀ (value : Json) {place : Place}, StartsValue place →
    ∀ (frames : List Frame) (tail : List Token),
      ofTokensFrom ⟨place, frames⟩ (tokens value tail) = resume frames (ofJson value) tail
  | .null, _, start, frames, tail | .bool _, _, start, frames, tail | .number _, _, start, frames, tail
  | .string _, _, start, frames, tail => ofTokensFrom_put (step_value start frames (by simp)) tail
  | .array [], _, start, frames, tail => by
    rw [tokens, ofTokensFrom_next (step_value start frames (by simp))]
    exact ofTokensFrom_put rfl tail
  | .array (item :: rest), _, start, frames, tail => by
    rw [tokens, ofTokensFrom_next (step_value start frames (by simp))]
    exact ofTokensFrom_itemTokens (item :: rest) (List.cons_ne_nil _ _) (.inr rfl) [] frames tail
  | .object [], _, start, frames, tail => by
    rw [tokens, ofTokensFrom_next (step_value start frames (by simp))]
    exact ofTokensFrom_put rfl tail
  | .object (field :: rest), _, start, frames, tail => by
    rw [tokens, ofTokensFrom_next (step_value start frames (by simp))]
    exact ofTokensFrom_fieldTokens (field :: rest) (List.cons_ne_nil _ _) (.inl rfl) [] frames tail

theorem ofTokensFrom_itemTokens : ∀ (values : List Json), values ≠ [] → ∀ {place : Place},
    StartsValue place → ∀ (items : List Document) (frames : List Frame) (tail : List Token),
      ofTokensFrom ⟨place, .array items :: frames⟩ (itemTokens values (.closeArray :: tail)) =
        resume frames (.array (items.reverse ++ ofItems values) none) tail
  | [], h, _, _, _, _, _ => absurd rfl h
  | [item], _, _, start, items, frames, tail => by
    rw [itemTokens, ofTokensFrom_tokens item start]
    refine (ofTokensFrom_put rfl tail).trans ?_
    rw [List.reverse_cons]
    rfl
  | item :: next :: others, _, _, start, items, frames, tail => by
    rw [itemTokens_cons, ofTokensFrom_tokens item start]
    refine (ofTokensFrom_nextItem ..).trans ?_
    rw [ofTokensFrom_itemTokens (next :: others) (List.cons_ne_nil _ _) (.inl rfl), List.reverse_cons,
      List.append_assoc]
    rfl

theorem ofTokensFrom_fieldTokens : ∀ (values : List (String × Json)), values ≠ [] →
    ∀ {place : Place}, StartsName place → ∀ (fields : List (Except Category String × Document))
      (frames : List Frame) (tail : List Token),
      ofTokensFrom ⟨place, .object fields none :: frames⟩ (fieldTokens values (.closeObject :: tail)) =
        resume frames (.object (fields.reverse ++ ofFields values) none) tail
  | [], h, _, _, _, _, _ => absurd rfl h
  | [(name, value)], _, _, start, fields, frames, tail => by
    rw [fieldTokens, ofTokensFrom_name start, ofTokensFrom_tokens value (.inl rfl)]
    refine (ofTokensFrom_put rfl tail).trans ?_
    rw [List.reverse_cons]
    rfl
  | (name, value) :: next :: others, _, _, start, fields, frames, tail => by
    rw [fieldTokens_cons, ofTokensFrom_name start, ofTokensFrom_tokens value (.inl rfl)]
    refine (ofTokensFrom_nextField ..).trans ?_
    rw [ofTokensFrom_fieldTokens (next :: others) (List.cons_ne_nil _ _) (.inr rfl), List.reverse_cons,
      List.append_assoc]
    rfl

end

/-- **Lines of a value.**  The lines of a value are read as the tree of the value, and nothing follows. -/
theorem ofBytes_pretty {value : Json} (h : value.Integral) :
    ofBytes (Text.bytes value.pretty) = (ofJson value, false) := by
  have hnothing : Ends [] := fun _ hfirst => by cases hfirst
  have hblank : Token.Blank "" := by
    rw [Token.Blank, Text.bytes_eq]
    decide
  have htokens : Token.ofBytes (Text.bytes value.pretty) = tokens value (Token.ofBytes []) := by
    have hlines := Token.ofBytes_prettyFrom hblank h hnothing
    rwa [List.append_nil] at hlines
  have hend : Token.ofBytes [] = [] := by rw [Token.ofBytes]
  have htree : ofTokens (tokens value []) = (ofJson value, []) :=
    ofTokensFrom_tokens value (.inl rfl) [] []
  rw [ofBytes, htokens, hend, htree]
  rfl

end Document

/-- A decoder reads the lines of a value as it reads the tree of the value. -/
theorem ofText_pretty {value : Json} (h : value.Integral) {α : Type} (decode : Decoder α) :
    ofText decode value.pretty =
      (decode (some depthLimit) (Document.ofJson value)).mapError .met := by
  rw [ofText, ofBytes, Document.ofBytes_pretty h]
  dsimp only
  cases decode (some depthLimit) (Document.ofJson value) <;> rfl

end Reconciliation.Json
