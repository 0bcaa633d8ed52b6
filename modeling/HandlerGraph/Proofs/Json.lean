import HandlerGraph.Json.Decode
import Mathlib.Data.List.Basic

/-! Written JSON reads back. A document is the list of its tokens with nothing between them;
scanning its text finds these tokens, and the reader turns them into the document again. Lexemes are
only asked to be complete: a number that ends where a separator or a closing bracket follows, and a
string body that ends at the next quote. Escaped text is such a body and stands for the text. -/
namespace HandlerGraph.Json

namespace Token

/-- Nothing follows, or a byte that no number contains. -/
def Ends (rest : List UInt8) : Prop := ∀ b ∈ rest.head?, b = 44 ∨ b = 93 ∨ b = 125

def IsNumber (lexeme : List UInt8) : Prop :=
  ∀ rest, Ends rest → numberLength (lexeme ++ rest) = some lexeme.length

def IsBody (body : List UInt8) : Prop :=
  ∀ n rest, bodyLength n (body ++ 34 :: rest) = some (n + body.length)

theorem ends_nil : Ends [] := by simp [Ends]

theorem ends_cons {b : UInt8} (h : b = 44 ∨ b = 93 ∨ b = 125) (rest : List UInt8) :
    Ends (b :: rest) := by
  simpa [Ends] using h

theorem scan_mark {found : List Token} {b : UInt8} {rest : List UInt8} {token : Token}
    (visible : isBlank b = false) (mark : mark? b = some token) :
    scan found (b :: rest) = scan (token :: found) rest := by
  rw [scan]
  simp [visible, mark]

theorem scan_scalar {found : List Token} {b : UInt8} {rest after : List UInt8} {v : Json} {n : Nat}
    (visible : isBlank b = false) (plain : mark? b = none) (read : scalar? b rest = some (v, n))
    (left : rest.drop n = after) : scan found (b :: rest) = scan (.scalar v :: found) after := by
  rw [scan]
  simp [visible, plain, read, left]

theorem scan_text {body : List UInt8} (complete : IsBody body) (found : List Token)
    (rest : List UInt8) :
    scan found (34 :: (body ++ 34 :: rest)) = scan (.scalar (.text body) :: found) rest := by
  have length := complete 0 rest
  have read : scalar? 34 (body ++ 34 :: rest) = some (.text body, body.length + 1) := by
    simp only [scalar?, if_true, length, Nat.zero_add, Option.map_some, List.take_left]
  have left : (body ++ 34 :: rest).drop (body.length + 1) = rest := by
    rw [← List.drop_drop, List.drop_left]
    rfl
  exact scan_scalar (by decide) (by decide) read left

theorem digit_apart {b : UInt8} (digit : isDigit b = true) :
    isBlank b = false ∧ mark? b = none ∧ b ≠ 34 ∧ b ≠ 110 ∧ b ≠ 116 ∧ b ≠ 102 := by
  simp only [isDigit, Bool.and_eq_true, decide_eq_true_eq] at digit
  obtain ⟨low, high⟩ := digit
  refine ⟨?_, ?_, ?_, ?_, ?_, ?_⟩
  · simp only [isBlank, Bool.or_eq_false_iff, beq_eq_false_iff_ne]
    grind
  · simp only [mark?]
    grind
  all_goals grind

/-- A number begins with its sign or a digit, so no other kind of token is tried on it. -/
theorem numberLength_cons {b : UInt8} {rest : List UInt8} {n : Nat}
    (h : numberLength (b :: rest) = some n) :
    isBlank b = false ∧ mark? b = none ∧ b ≠ 34 ∧ b ≠ 110 ∧ b ≠ 116 ∧ b ≠ 102 := by
  by_cases sign : b = 45
  · subst sign
    decide
  · refine digit_apart (Bool.of_not_eq_false fun other => ?_)
    have unread : unsignedLength (b :: rest) = none := by
      simp [unsignedLength, wholeLength, someDigits, digitsLength, other]
    simp [numberLength, sign, unread] at h

theorem scan_number {lexeme : List UInt8} (complete : IsNumber lexeme) (found : List Token)
    {rest : List UInt8} (ends : Ends rest) :
    scan found (lexeme ++ rest) = scan (.scalar (.number lexeme) :: found) rest := by
  have length := complete rest ends
  cases lexeme with
  | nil =>
    have alone := complete [] ends_nil
    simp [numberLength, unsignedLength, wholeLength, someDigits, digitsLength] at alone
  | cons b lexeme =>
    rw [List.cons_append] at length ⊢
    obtain ⟨visible, plain, quote, n, t, f⟩ := numberLength_cons length
    have read : scalar? b (lexeme ++ rest) = some (.number (b :: lexeme), lexeme.length) := by
      simp [scalar?, quote, n.symm, t.symm, f.symm, length]
    exact scan_scalar visible plain read List.drop_left

end Token

inductive Written : Json → Prop
  | null : Written null
  | bool (value : Bool) : Written (bool value)
  | number {lexeme : List UInt8} (complete : Token.IsNumber lexeme) : Written (number lexeme)
  | text {body : List UInt8} (complete : Token.IsBody body) : Written (text body)
  | array {items : List Json} (written : ∀ v ∈ items, Written v) : Written (array items)
  | object {fields : List (List UInt8 × Json)} (keys : ∀ f ∈ fields, Token.IsBody f.1)
      (written : ∀ f ∈ fields, Written f.2) : Written (object fields)

mutual

def tokens : Json → List Token
  | array items => .beginArray :: itemTokens items ++ [.endArray]
  | object fields => .beginObject :: fieldTokens fields ++ [.endObject]
  | null => [.scalar null]
  | bool value => [.scalar (bool value)]
  | number lexeme => [.scalar (number lexeme)]
  | text body => [.scalar (text body)]

def itemTokens : List Json → List Token
  | [] => []
  | [v] => tokens v
  | v :: w :: rest => tokens v ++ .comma :: itemTokens (w :: rest)

def fieldTokens : List (List UInt8 × Json) → List Token
  | [] => []
  | [(key, v)] => .scalar (text key) :: .colon :: tokens v
  | (key, v) :: f :: rest =>
    .scalar (text key) :: .colon :: tokens v ++ .comma :: fieldTokens (f :: rest)

end

/-- Scanning finds the tokens of a value wherever its text may end. -/
def Scans (v : Json) : Prop :=
  ∀ found rest, Token.Ends rest →
    Token.scan found (render v ++ rest) = Token.scan ((tokens v).reverse ++ found) rest

theorem scan_renderItems {items : List Json} (scans : ∀ v ∈ items, Scans v) (found : List Token)
    (rest : List UInt8) :
    Token.scan found (renderItems items ++ 93 :: rest) =
      Token.scan (.endArray :: ((itemTokens items).reverse ++ found)) rest := by
  have close : ∀ found rest, Token.scan found (93 :: rest) = Token.scan (.endArray :: found) rest :=
    fun _ _ => Token.scan_mark (by decide) rfl
  have comma : ∀ found rest, Token.scan found (44 :: rest) = Token.scan (.comma :: found) rest :=
    fun _ _ => Token.scan_mark (by decide) rfl
  induction items generalizing found with
  | nil => simp [renderItems, itemTokens, close]
  | cons v items ih =>
    have first : Scans v := scans v List.mem_cons_self
    cases items with
    | nil =>
      have here := first found (93 :: rest) (Token.ends_cons (by decide) rest)
      rw [renderItems, itemTokens, here, close]
    | cons w items =>
      have later := ih fun x hx => scans x (List.mem_cons_of_mem _ hx)
      have here := first found (44 :: (renderItems (w :: items) ++ 93 :: rest))
        (Token.ends_cons (by decide) _)
      rw [renderItems, itemTokens, List.append_assoc, List.cons_append, here, comma, later]
      simp

theorem scan_renderFields {fields : List (List UInt8 × Json)}
    (keys : ∀ f ∈ fields, Token.IsBody f.1) (scans : ∀ f ∈ fields, Scans f.2) (found : List Token)
    (rest : List UInt8) :
    Token.scan found (renderFields fields ++ 125 :: rest) =
      Token.scan (.endObject :: ((fieldTokens fields).reverse ++ found)) rest := by
  have close : ∀ found rest,
      Token.scan found (125 :: rest) = Token.scan (.endObject :: found) rest :=
    fun _ _ => Token.scan_mark (by decide) rfl
  have comma : ∀ found rest, Token.scan found (44 :: rest) = Token.scan (.comma :: found) rest :=
    fun _ _ => Token.scan_mark (by decide) rfl
  have colon : ∀ found rest, Token.scan found (58 :: rest) = Token.scan (.colon :: found) rest :=
    fun _ _ => Token.scan_mark (by decide) rfl
  induction fields generalizing found with
  | nil => simp [renderFields, fieldTokens, close]
  | cons f fields ih =>
    obtain ⟨key, v⟩ := f
    have complete : Token.IsBody key := keys _ List.mem_cons_self
    have first : Scans v := scans _ List.mem_cons_self
    cases fields with
    | nil =>
      have here := first (.colon :: .scalar (.text key) :: found) (125 :: rest)
        (Token.ends_cons (by decide) rest)
      simp only [renderFields, fieldTokens, List.cons_append, List.append_assoc,
        Token.scan_text complete, colon, here, close]
      simp
    | cons g fields =>
      have later := ih (fun x hx => keys x (List.mem_cons_of_mem _ hx))
        fun x hx => scans x (List.mem_cons_of_mem _ hx)
      have here := first (.colon :: .scalar (.text key) :: found)
        (44 :: (renderFields (g :: fields) ++ 125 :: rest)) (Token.ends_cons (by decide) _)
      simp only [renderFields, fieldTokens, List.cons_append, List.append_assoc,
        Token.scan_text complete, colon, here, comma, later]
      simp

theorem Written.scans {v : Json} (written : Written v) : Scans v := by
  induction written with
  | null =>
    intro found rest _
    exact Token.scan_scalar (by decide) rfl (n := 3) rfl rfl
  | bool value =>
    intro found rest _
    cases value with
    | true => exact Token.scan_scalar (by decide) rfl (n := 3) rfl rfl
    | false => exact Token.scan_scalar (by decide) rfl (n := 4) rfl rfl
  | number complete =>
    intro found rest ends
    exact Token.scan_number complete found ends
  | text complete =>
    intro found rest _
    simpa [render, tokens] using Token.scan_text complete found rest
  | @array items _ scans =>
    intro found rest _
    have opened : Token.scan found (91 :: (renderItems items ++ 93 :: rest)) =
        Token.scan (.beginArray :: found) (renderItems items ++ 93 :: rest) :=
      Token.scan_mark (by decide) rfl
    simp [render, tokens, opened, scan_renderItems scans]
  | @object fields keys _ scans =>
    intro found rest _
    have opened : Token.scan found (123 :: (renderFields fields ++ 125 :: rest)) =
        Token.scan (.beginObject :: found) (renderFields fields ++ 125 :: rest) :=
      Token.scan_mark (by decide) rfl
    simp [render, tokens, opened, scan_renderFields keys scans]

/-- Wherever a value may begin, reading its tokens enters it. -/
def Enters (v : Json) : Prop :=
  ∀ frames expected, expected = .value ∨ expected = .valueOrEnd →
    (tokens v).foldlM Reading.step ⟨frames, expected⟩ = Reading.place v frames

theorem foldlM_itemTokens {items : List Json} (some_item : items ≠ [])
    (enters : ∀ v ∈ items, Enters v) (done : List Json) (outer : List Frame) {expected : Expected}
    (begins : expected = .value ∨ expected = .valueOrEnd) :
    (itemTokens items).foldlM Reading.step ⟨.array done :: outer, expected⟩ =
      some ⟨.array (items.reverse ++ done) :: outer, .separator⟩ := by
  induction items generalizing done expected with
  | nil => contradiction
  | cons v items ih =>
    have first : Enters v := enters v List.mem_cons_self
    have here := first (.array done :: outer) expected begins
    cases items with
    | nil => simpa [itemTokens, Reading.place] using here
    | cons w items =>
      have comma : Reading.step ⟨.array (v :: done) :: outer, .separator⟩ .comma =
          some ⟨.array (v :: done) :: outer, .value⟩ := rfl
      have later := ih (by simp) (fun x hx => enters x (List.mem_cons_of_mem _ hx)) (v :: done)
        (Or.inl rfl)
      simp [itemTokens, here, Reading.place, comma, later]

theorem foldlM_fieldTokens {fields : List (List UInt8 × Json)} (some_field : fields ≠ [])
    (enters : ∀ f ∈ fields, Enters f.2) (done : List (List UInt8 × Json)) (outer : List Frame)
    {expected : Expected} (begins : expected = .key ∨ expected = .keyOrEnd) :
    (fieldTokens fields).foldlM Reading.step ⟨.object done :: outer, expected⟩ =
      some ⟨.object (fields.reverse ++ done) :: outer, .separator⟩ := by
  induction fields generalizing done expected with
  | nil => contradiction
  | cons f fields ih =>
    obtain ⟨key, v⟩ := f
    have first : Enters v := enters _ List.mem_cons_self
    have here := first (.member done key :: outer) .value (Or.inl rfl)
    have named : Reading.step ⟨.object done :: outer, expected⟩ (.scalar (.text key)) =
        some ⟨.object done :: outer, .colon key⟩ := by
      rcases begins with rfl | rfl <;> rfl
    have colon : Reading.step ⟨.object done :: outer, .colon key⟩ .colon =
        some ⟨.member done key :: outer, .value⟩ := rfl
    cases fields with
    | nil => simp [fieldTokens, named, colon, here, Reading.place]
    | cons g fields =>
      have comma : Reading.step ⟨.object ((key, v) :: done) :: outer, .separator⟩ .comma =
          some ⟨.object ((key, v) :: done) :: outer, .key⟩ := rfl
      have later := ih (by simp) (fun x hx => enters x (List.mem_cons_of_mem _ hx))
        ((key, v) :: done) (Or.inl rfl)
      simp [fieldTokens, named, colon, here, Reading.place, comma, later]

theorem Written.enters {v : Json} (written : Written v) : Enters v := by
  induction written with
  | null | bool | number | text =>
    rintro frames expected (rfl | rfl) <;> simp [tokens, Reading.step, Reading.beginValue]
  | @array items _ enters =>
    intro frames expected begins
    have opened : Reading.step ⟨frames, expected⟩ .beginArray =
        some ⟨.array [] :: frames, .valueOrEnd⟩ := by
      rcases begins with rfl | rfl <;> rfl
    cases items with
    | nil =>
      have closed : Reading.step ⟨.array [] :: frames, .valueOrEnd⟩ .endArray =
          Reading.place (.array []) frames := rfl
      simp [tokens, itemTokens, opened, closed]
    | cons v items =>
      have filled := foldlM_itemTokens (by simp) enters [] frames (Or.inr rfl)
      have closed : ∀ done, Reading.step ⟨.array done :: frames, .separator⟩ .endArray =
          Reading.place (.array done.reverse) frames := fun _ => rfl
      simp [tokens, opened, filled, closed]
  | @object fields _ _ enters =>
    intro frames expected begins
    have opened : Reading.step ⟨frames, expected⟩ .beginObject =
        some ⟨.object [] :: frames, .keyOrEnd⟩ := by
      rcases begins with rfl | rfl <;> rfl
    cases fields with
    | nil =>
      have closed : Reading.step ⟨.object [] :: frames, .keyOrEnd⟩ .endObject =
          Reading.place (.object []) frames := rfl
      simp [tokens, fieldTokens, opened, closed]
    | cons f fields =>
      have filled := foldlM_fieldTokens (by simp) enters [] frames (Or.inr rfl)
      have closed : ∀ done, Reading.step ⟨.object done :: frames, .separator⟩ .endObject =
          Reading.place (.object done.reverse) frames := fun _ => rfl
      simp [tokens, opened, filled, closed]

theorem parse?_render {v : Json} (written : Written v) : parse? (render v) = some v := by
  have scanned : Token.scan [] (render v) = some (tokens v) := by
    have := written.scans [] [] Token.ends_nil
    rw [List.append_nil, List.append_nil] at this
    rw [this, Token.scan, List.reverse_reverse]
  rw [parse?, scanned, Option.bind_some, ofTokens?, Reading.start,
    written.enters [] .value (Or.inl rfl)]
  rfl

theorem escapeByte_cases (b : UInt8) :
    (escapeByte b = [b] ∧ b ≠ 34 ∧ b ≠ 92 ∧ ¬ b < 32) ∨
    (∃ e, escapeByte b = [92, e] ∧ e ∈ Token.shortEscapes ∧ shortValue? e = some b) ∨
    (escapeByte b = [92, 117, 48, 48, hexDigit (b.toNat / 16), hexDigit (b.toNat % 16)] ∧
      b < 32) := by
  by_cases short : b ∈ [34, 92, 8, 9, 10, 12, 13]
  · refine Or.inr (Or.inl ?_)
    simp only [List.mem_cons, List.not_mem_nil, or_false] at short
    rcases short with rfl | rfl | rfl | rfl | rfl | rfl | rfl <;> exact ⟨_, rfl, by decide, rfl⟩
  · simp only [List.mem_cons, List.not_mem_nil, or_false, not_or] at short
    obtain ⟨quote, backslash, b8, b9, b10, b12, b13⟩ := short
    by_cases low : b < 32
    · exact Or.inr (Or.inr ⟨by simp [escapeByte, *], low⟩)
    · exact Or.inl ⟨by simp [escapeByte, *], quote, backslash, low⟩

theorem hexWord_low : ∀ n < 32,
    utf8Bytes (hexWord 48 48 (hexDigit (n / 16)) (hexDigit (n % 16))) = [UInt8.ofNat n] ∧
      hexWord 48 48 (hexDigit (n / 16)) (hexDigit (n % 16)) < 0xD800 ∧
      Token.isHex (hexDigit (n / 16)) = true ∧ Token.isHex (hexDigit (n % 16)) = true := by
  decide

theorem bodyLength_escapeByte (b : UInt8) (n : Nat) (rest : List UInt8) :
    Token.bodyLength n (escapeByte b ++ rest) =
      Token.bodyLength (n + (escapeByte b).length) rest := by
  rcases escapeByte_cases b with ⟨same, quote, backslash, high⟩ | ⟨e, short, known, -⟩ | ⟨long, low⟩
  · rw [same, List.singleton_append, Token.bodyLength]
    · simp [quote, backslash, high]
    all_goals simp [backslash]
  · have other : e ≠ 117 := by
      rintro rfl
      exact absurd known (by decide)
    rw [short, List.cons_append, List.singleton_append, Token.bodyLength]
    · simp [known]
    · simp [other]
  · have zero : Token.isHex 48 = true := rfl
    obtain ⟨-, -, first, second⟩ := hexWord_low b.toNat (by simpa [UInt8.lt_iff_toNat_lt] using low)
    simp [long, Token.bodyLength, zero, first, second]

theorem unescape_escapeByte (b : UInt8) (done rest : List UInt8) :
    unescape done (escapeByte b ++ rest) = unescape (b :: done) rest := by
  rcases escapeByte_cases b with
    ⟨same, quote, backslash, high⟩ | ⟨e, short, known, value⟩ | ⟨long, low⟩
  · rw [same, List.singleton_append, unescape]
    all_goals simp [backslash]
  · have other : e ≠ 117 := by
      rintro rfl
      exact absurd known (by decide)
    rw [short, List.cons_append, List.singleton_append, unescape]
    · simp [value]
    · simp [other]
  · obtain ⟨bytes, small, -⟩ := hexWord_low b.toNat (by simpa [UInt8.lt_iff_toNat_lt] using low)
    rw [long, unescape.eq_def]
    simp [small, bytes]

theorem isBody_escape (s : String) : Token.IsBody (escape s) := by
  intro n rest
  rw [escape]
  induction Text.encode s generalizing n with
  | nil => rfl
  | cons b bytes ih =>
    rw [List.flatMap_cons, List.append_assoc, bodyLength_escapeByte, ih, List.length_append,
      Nat.add_assoc]

theorem unescape_flatMap (bytes done : List UInt8) :
    unescape done (bytes.flatMap escapeByte) = some (done.reverse ++ bytes) := by
  induction bytes generalizing done with
  | nil => simp [unescape]
  | cons b bytes ih => rw [List.flatMap_cons, unescape_escapeByte, ih]; simp

@[simp] theorem decodeBody?_escape (s : String) : decodeBody? (escape s) = some s := by
  rw [decodeBody?, escape, unescape_flatMap]
  simp

@[simp] theorem text?_ofString (s : String) : (ofString s).text? = some s := decodeBody?_escape s

theorem written_ofString (s : String) : Written (ofString s) := .text (isBody_escape s)

end HandlerGraph.Json
