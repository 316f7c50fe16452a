import Tether.Path

set_option autoImplicit false

/- The text of a path determines the path, as long as its member names keep clear of the
punctuation and its index arguments are null, booleans, integers and strings. -/
namespace Tether

namespace Text

theorem hexValue?_digitChar : ∀ digit < 16, hexValue? (Nat.digitChar digit) = some digit := by
  decide

/-- Reading undoes writing. -/
theorem ofHex?_hexDigits (n : Nat) : ofHex? (hexDigits n) = some n := by
  induction n using Nat.strongRecOn with
  | ind n ih =>
      by_cases small : n < 16
      · rw [hexDigits, Nat.toDigits_of_lt_base small]
        simp [ofHex?, hexValue?_digitChar n small]
      · have less : n / 16 < n := by omega
        have digit : n % 16 < 16 := by omega
        have higher := ih (n / 16) less
        unfold ofHex? hexDigits at higher
        rw [hexDigits, Nat.toDigits_of_base_le (by decide) (by omega), ofHex?, List.foldlM_append,
          higher]
        simp [hexValue?_digitChar _ digit]
        omega

/-- No digit is a closing brace. -/
theorem mem_hexDigits {n : Nat} {c : Char} (found : c ∈ hexDigits n) : c ≠ '\x7d' := by
  have digits : ∀ digit < 16, Nat.digitChar digit ≠ '\x7d' := by decide
  induction n using Nat.strongRecOn with
  | ind n ih =>
      unfold hexDigits at found ih
      by_cases small : n < 16
      · rw [Nat.toDigits_of_lt_base small, List.mem_singleton] at found
        rw [found]
        exact digits n small
      · rw [Nat.toDigits_of_base_le (by decide) (by omega), List.mem_append,
          List.mem_singleton] at found
        rcases found with higher | rfl
        · exact ih (n / 16) (by omega) higher
        · exact digits _ (by omega)

/-- The character that an escape letter stands for. -/
def escaped? : Char → Option Char
  | '0' => some '\x00'
  | 't' => some '\t'
  | 'r' => some '\r'
  | 'n' => some '\n'
  | '"' => some '"'
  | '\\' => some '\\'
  | _ => none

/-- Reads the first character of an escaped text. -/
def unescape : List Char → Option (Char × List Char)
  | '\\' :: 'u' :: '\x7b' :: rest =>
      (ofHex? (rest.takeWhile (· != '\x7d'))).map fun code =>
        (Char.ofNat code, (rest.dropWhile (· != '\x7d')).drop 1)
  | '\\' :: letter :: rest => (escaped? letter).map (·, rest)
  | c :: rest => some (c, rest)
  | [] => none

theorem unescape_spellOut (c : Char) (rest : List Char) :
    unescape (spellOut c ++ rest) = some (c, rest) := by
  have digits : ∀ d ∈ hexDigits c.toNat, (d != '\x7d') = true := by
    intro d found
    simpa using mem_hexDigits found
  have text : spellOut c ++ rest =
      '\\' :: 'u' :: '\x7b' :: (hexDigits c.toNat ++ '\x7d' :: rest) := by
    simp [spellOut]
  have code : (hexDigits c.toNat ++ '\x7d' :: rest).takeWhile (· != '\x7d') =
      hexDigits c.toNat := by
    rw [List.takeWhile_append_of_pos digits]
    simp
  have behind : (hexDigits c.toNat ++ '\x7d' :: rest).dropWhile (· != '\x7d') =
      '\x7d' :: rest := by
    rw [List.dropWhile_append_of_pos digits]
    simp
  rw [text, unescape, code, behind, ofHex?_hexDigits]
  simp

theorem unescape_ordinary {c : Char} (ordinary : c ≠ '\\') (rest : List Char) :
    unescape (c :: rest) = some (c, rest) := by
  unfold unescape
  split
  · rename_i same
    exact absurd (List.cons.inj same).1 ordinary
  · rename_i same
    exact absurd (List.cons.inj same).1 ordinary
  · rename_i same
    rw [(List.cons.inj same).1, (List.cons.inj same).2]
  · rename_i same
    cases same

theorem unescape_escapeChar (c : Char) (rest : List Char) :
    unescape (escapeChar c ++ rest) = some (c, rest) := by
  unfold escapeChar
  iterate 6
    split
    · rename_i same
      rw [eq_of_beq same]
      rfl
  rename_i plain
  split
  · exact unescape_spellOut c rest
  · have ordinary : c ≠ '\\' := by simpa using plain
    exact unescape_ordinary ordinary rest

/-- An escaped character ends where it is complete. -/
theorem escapeChar_append {c d : Char} {left right : List Char}
    (same : escapeChar c ++ left = escapeChar d ++ right) : c = d ∧ left = right := by
  have read := unescape_escapeChar c left
  rw [same, unescape_escapeChar d right] at read
  simpa [eq_comm] using read

theorem quote_ne_escapeChar (c : Char) (left right : List Char) :
    '"' :: left ≠ escapeChar c ++ right := by
  intro same
  have read := unescape_escapeChar c right
  rw [← same, unescape_ordinary (by decide)] at read
  cases read
  have first := (List.cons.inj same).1
  revert first
  decide

theorem quotedChars_append {left right : List Char} {chars others : List Char}
    (same : quotedChars chars ++ left = quotedChars others ++ right) :
    chars = others ∧ left = right := by
  simp only [quotedChars, List.cons_append, List.append_assoc, List.nil_append,
    List.cons.injEq, true_and] at same
  induction chars generalizing others with
  | nil =>
      cases others with
      | nil => exact ⟨rfl, (List.cons.inj same).2⟩
      | cons d others =>
          rw [List.flatMap_cons, List.append_assoc] at same
          exact absurd same (quote_ne_escapeChar d _ _)
  | cons c chars ih =>
      cases others with
      | nil =>
          rw [List.flatMap_cons, List.append_assoc] at same
          exact absurd same.symm (quote_ne_escapeChar c _ _)
      | cons d others =>
          rw [List.flatMap_cons, List.flatMap_cons, List.append_assoc, List.append_assoc] at same
          obtain ⟨rfl, rest⟩ := escapeChar_append same
          obtain ⟨rfl, behind⟩ := ih rest
          exact ⟨rfl, behind⟩

/-- Two texts that go on with a stop, or end, split there alike. -/
theorem split_at_stop {stop : Char → Bool} {first second left right : List Char}
    (clear : ∀ c ∈ first, stop c = false) (clear' : ∀ c ∈ second, stop c = false)
    (ends : ∀ c ∈ left.head?, stop c = true) (ends' : ∀ c ∈ right.head?, stop c = true)
    (same : first ++ left = second ++ right) : first = second ∧ left = right := by
  induction first generalizing second with
  | nil =>
      cases second with
      | nil => exact ⟨rfl, same⟩
      | cons d second =>
          rw [List.nil_append] at same
          have stopped := ends d (by rw [same]; rfl)
          rw [clear' d (List.mem_cons_self ..)] at stopped
          cases stopped
  | cons c first ih =>
      cases second with
      | nil =>
          rw [List.nil_append] at same
          have stopped := ends' c (by rw [← same]; rfl)
          rw [clear c (List.mem_cons_self ..)] at stopped
          cases stopped
      | cons d second =>
          obtain ⟨rfl, rest⟩ := List.cons.inj same
          obtain ⟨rfl, behind⟩ := ih (fun c found => clear c (List.mem_cons_of_mem _ found))
            (fun c found => clear' c (List.mem_cons_of_mem _ found)) rest
          exact ⟨rfl, behind⟩

theorem natText_injective {m n : Nat} (same : m.repr.toList = n.repr.toList) : m = n := by
  rw [Nat.toList_repr, Nat.toList_repr] at same
  have read := congrArg (Nat.ofDigitChars 10 · 0) same
  simpa using read

theorem natText_isDigit {n : Nat} {c : Char} (found : c ∈ n.repr.toList) : c.isDigit := by
  rw [Nat.toList_repr] at found
  exact Nat.isDigit_of_mem_toDigits (by decide) (by decide) found

theorem intText_cases (n : Int) :
    (∃ m : Nat, n = m ∧ (toString n).toList = m.repr.toList) ∨
      ∃ m : Nat, n = Int.negSucc m ∧ (toString n).toList = '-' :: (m + 1).repr.toList := by
  cases n with
  | ofNat m => exact .inl ⟨m, rfl, rfl⟩
  | negSucc m => exact .inr ⟨m, rfl, by simp [toString, Int.repr]⟩

theorem intText_chars {n : Int} {c : Char} (found : c ∈ (toString n).toList) :
    c.isDigit ∨ c = '-' := by
  obtain ⟨m, -, text⟩ | ⟨m, -, text⟩ := intText_cases n
  · rw [text] at found
    exact .inl (natText_isDigit found)
  · rw [text, List.mem_cons] at found
    rcases found with sign | digit
    · exact .inr sign
    · exact .inl (natText_isDigit digit)

theorem intText_injective {m n : Int} (same : (toString m).toList = (toString n).toList) :
    m = n := by
  have unsigned (k : Nat) (rest : List Char) : k.repr.toList ≠ '-' :: rest := by
    intro signed
    have digit : '-'.isDigit := natText_isDigit (by rw [signed]; exact List.mem_cons_self ..)
    exact absurd digit (by decide)
  obtain ⟨a, rfl, text⟩ | ⟨a, rfl, text⟩ := intText_cases m <;>
    obtain ⟨b, rfl, text'⟩ | ⟨b, rfl, text'⟩ := intText_cases n <;>
    rw [text, text'] at same
  · rw [natText_injective same]
  · exact absurd same (unsigned a _)
  · exact absurd same.symm (unsigned b _)
  · have next := natText_injective (List.cons.inj same).2
    rw [Nat.succ.inj next]

end Text

namespace Value

/-- The values that may stand as arguments in a path. -/
def isPlain : Value → Bool
  | .null | .bool _ | .int _ | .string _ => true
  | _ => false

/-- Where an argument ends. -/
def isArgumentEnd (c : Char) : Bool := c == ',' || c == ']'

theorem literal_clear {value : Value} (plain : value.isPlain) (unquoted : value.asString? = none)
    {c : Char} (found : c ∈ value.literal.toList) : isArgumentEnd c = false ∧ c ≠ '"' := by
  cases value with
  | null =>
      have clear : "null".toList.all fun c => !isArgumentEnd c && c != '"' := by decide
      simpa using List.all_eq_true.mp clear c found
  | bool flag =>
      have clear : (if flag then "true" else "false").toList.all
          fun c => !isArgumentEnd c && c != '"' := by
        cases flag <;> decide
      simpa using List.all_eq_true.mp clear c found
  | int number =>
      have digits : c.isDigit ∨ c = '-' := Text.intText_chars found
      refine ⟨?_, ?_⟩
      · cases stop : isArgumentEnd c with
        | false => rfl
        | true =>
            simp only [isArgumentEnd, Bool.or_eq_true, beq_iff_eq] at stop
            obtain rfl | rfl := stop <;> revert digits <;> decide
      · rintro rfl
        revert digits
        decide
  | string text => cases unquoted
  | _ => cases plain

theorem literal_int_ne {number : Int64} {word : String} {first : Char}
    (letter : first ∈ word.toList) (other : ¬ (first.isDigit ∨ first = '-')) :
    (toString number.toInt).toList ≠ word.toList := by
  intro same
  rw [← same] at letter
  exact other (Text.intText_chars letter)

theorem literal_injective {left right : Value} (leftPlain : left.isPlain)
    (rightPlain : right.isPlain) (leftUnquoted : left.asString? = none)
    (rightUnquoted : right.asString? = none)
    (same : left.literal.toList = right.literal.toList) : left = right := by
  have wordless (number : Int64) (flag : Bool) :
      (toString number.toInt).toList ≠ (if flag then "true" else "false").toList := by
    cases flag
    · exact literal_int_ne (by decide : 'f' ∈ "false".toList) (by decide)
    · exact literal_int_ne (by decide : 't' ∈ "true".toList) (by decide)
  have nullless (number : Int64) : (toString number.toInt).toList ≠ "null".toList :=
    literal_int_ne (by decide : 'n' ∈ "null".toList) (by decide)
  have flagless : ∀ flag : Bool, "null".toList ≠ (if flag then "true" else "false").toList := by
    decide
  have flags : ∀ a b : Bool, (if a then "true" else "false").toList =
      (if b then "true" else "false").toList → a = b := by decide
  cases left with
  | null =>
      cases right with
      | null => rfl
      | bool flag => exact absurd same (flagless flag)
      | int number => exact absurd same.symm (nullless number)
      | string text => cases rightUnquoted
      | _ => cases rightPlain
  | bool flag =>
      cases right with
      | null => exact absurd same.symm (flagless flag)
      | bool other => rw [flags flag other same]
      | int number => exact absurd same.symm (wordless number flag)
      | string text => cases rightUnquoted
      | _ => cases rightPlain
  | int number =>
      cases right with
      | null => exact absurd same (nullless number)
      | bool flag => exact absurd same (wordless number flag)
      | int other => rw [Int64.toInt_inj.mp (Text.intText_injective same)]
      | string text => cases rightUnquoted
      | _ => cases rightPlain
  | string text => cases leftUnquoted
  | _ => cases leftPlain

theorem literal_ne_quoted {value : Value} (plain : value.isPlain)
    (unquoted : value.asString? = none) {text : String} {left right : List Char}
    (ends : ∀ c ∈ left.head?, isArgumentEnd c = true) :
    value.literal.toList ++ left ≠ (Text.quoted text).toList ++ right := by
  intro same
  rw [Text.quoted, String.toList_ofList, Text.quotedChars, List.cons_append] at same
  cases chars : value.literal.toList with
  | nil =>
      rw [chars, List.nil_append] at same
      have stopped := ends '"' (by rw [same]; rfl)
      revert stopped
      decide
  | cons c rest =>
      have clear := literal_clear plain unquoted (by rw [chars]; exact List.mem_cons_self ..)
      rw [chars, List.cons_append] at same
      exact clear.2 (List.cons.inj same).1

theorem eq_of_asString? {value : Value} {text : String} (quoted : value.asString? = some text) :
    value = .string text := by
  cases value <;> cases quoted
  rfl

/-- A literal followed by the end of an argument determines the value. -/
theorem literal_append {first second : Value} (firstPlain : first.isPlain)
    (secondPlain : second.isPlain) {left right : List Char}
    (ends : ∀ c ∈ left.head?, isArgumentEnd c = true)
    (ends' : ∀ c ∈ right.head?, isArgumentEnd c = true)
    (same : first.literal.toList ++ left = second.literal.toList ++ right) :
    first = second ∧ left = right := by
  cases firstQuoted : first.asString? with
  | none =>
      cases secondQuoted : second.asString? with
      | none =>
          obtain ⟨texts, behind⟩ := Text.split_at_stop
            (fun c found => (literal_clear firstPlain firstQuoted found).1)
            (fun c found => (literal_clear secondPlain secondQuoted found).1) ends ends' same
          exact ⟨literal_injective firstPlain secondPlain firstQuoted secondQuoted texts, behind⟩
      | some text =>
          obtain rfl := eq_of_asString? secondQuoted
          exact absurd same (literal_ne_quoted firstPlain firstQuoted ends)
  | some text =>
      obtain rfl := eq_of_asString? firstQuoted
      cases secondQuoted : second.asString? with
      | none => exact absurd same.symm (literal_ne_quoted secondPlain secondQuoted ends')
      | some other =>
          obtain rfl := eq_of_asString? secondQuoted
          simp only [literal, Text.quoted, String.toList_ofList] at same
          obtain ⟨chars, behind⟩ := Text.quotedChars_append same
          rw [String.toList_inj.mp chars]
          exact ⟨rfl, behind⟩

/-- The text of an argument list. -/
def argumentChars (arguments : List Value) : List Char :=
  (", ".intercalate (arguments.map literal)).toList

theorem argumentChars_single (value : Value) : argumentChars [value] = value.literal.toList := by
  simp [argumentChars]

theorem argumentChars_cons (value next : Value) (rest : List Value) :
    argumentChars (value :: next :: rest) =
      value.literal.toList ++ ',' :: ' ' :: argumentChars (next :: rest) := by
  simp [argumentChars, String.intercalate_cons_cons, String.toList_append]

/-- What stands behind the first of several arguments, up to the closing bracket and beyond. -/
def argumentTail (rest : List Value) (behind : List Char) : List Char :=
  match rest with
  | [] => ']' :: behind
  | next :: rest => ',' :: ' ' :: (argumentChars (next :: rest) ++ ']' :: behind)

theorem argumentTail_ends (rest : List Value) (behind : List Char) :
    ∀ c ∈ (argumentTail rest behind).head?, isArgumentEnd c = true := by
  cases rest <;> simp [argumentTail, isArgumentEnd]

theorem argumentChars_tail (value : Value) (rest : List Value) (behind : List Char) :
    argumentChars (value :: rest) ++ ']' :: behind =
      value.literal.toList ++ argumentTail rest behind := by
  cases rest with
  | nil => rw [argumentChars_single, argumentTail]
  | cons next rest =>
      rw [argumentChars_cons, argumentTail, List.append_assoc, List.cons_append, List.cons_append]

theorem literal_ne_nil {value : Value} (plain : value.isPlain) : value.literal.toList ≠ [] := by
  cases value with
  | null => decide
  | bool flag =>
      have words : ∀ flag : Bool, (if flag then "true" else "false").toList ≠ [] := by decide
      exact words flag
  | int number =>
      obtain ⟨m, -, text⟩ | ⟨m, -, text⟩ := Text.intText_cases number.toInt
      · change (toString number.toInt).toList ≠ []
        rw [text, Nat.toList_repr]
        exact Nat.toDigits_ne_nil
      · change (toString number.toInt).toList ≠ []
        rw [text]
        exact List.cons_ne_nil _ _
  | string text =>
      simp only [literal, Text.quoted, String.toList_ofList, Text.quotedChars]
      exact List.cons_ne_nil _ _
  | _ => cases plain

/-- No argument starts with the bracket that closes the list. -/
theorem bracket_ne_literal {value : Value} (plain : value.isPlain) (left right : List Char) :
    ']' :: left ≠ value.literal.toList ++ right := by
  intro same
  cases quoted : value.asString? with
  | some text =>
      obtain rfl := eq_of_asString? quoted
      simp only [literal, Text.quoted, String.toList_ofList, Text.quotedChars,
        List.cons_append] at same
      have first := (List.cons.inj same).1
      revert first
      decide
  | none =>
      cases chars : value.literal.toList with
      | nil => exact literal_ne_nil plain chars
      | cons c rest =>
          have clear := literal_clear plain quoted (by rw [chars]; exact List.mem_cons_self ..)
          rw [chars, List.cons_append] at same
          rw [← (List.cons.inj same).1] at clear
          revert clear
          decide

/-- An argument list in brackets determines its arguments. -/
theorem argumentChars_append {arguments others : List Value}
    (plain : ∀ value ∈ arguments, value.isPlain) (plain' : ∀ value ∈ others, value.isPlain)
    {left right : List Char}
    (same : argumentChars arguments ++ ']' :: left = argumentChars others ++ ']' :: right) :
    arguments = others ∧ left = right := by
  induction arguments generalizing others with
  | nil =>
      cases others with
      | nil => exact ⟨rfl, (List.cons.inj same).2⟩
      | cons value others =>
          rw [argumentChars_tail] at same
          exact absurd same (bracket_ne_literal (plain' value (List.mem_cons_self ..)) _ _)
  | cons value arguments ih =>
      cases others with
      | nil =>
          rw [argumentChars_tail] at same
          exact absurd same.symm (bracket_ne_literal (plain value (List.mem_cons_self ..)) _ _)
      | cons other others =>
          rw [argumentChars_tail, argumentChars_tail] at same
          obtain ⟨rfl, tails⟩ := literal_append (plain value (List.mem_cons_self ..))
            (plain' other (List.mem_cons_self ..)) (argumentTail_ends arguments left)
            (argumentTail_ends others right) same
          have rest : argumentChars arguments ++ ']' :: left =
              argumentChars others ++ ']' :: right := by
            cases arguments with
            | nil =>
                cases others with
                | nil => exact tails
                | cons next others => simp [argumentTail] at tails
            | cons next arguments =>
                cases others with
                | nil => simp [argumentTail] at tails
                | cons next' others =>
                    simpa only [argumentTail, List.cons.injEq, true_and] using tails
          obtain ⟨rfl, behind⟩ := ih (fun v found => plain v (List.mem_cons_of_mem _ found))
            (fun v found => plain' v (List.mem_cons_of_mem _ found)) rest
          exact ⟨rfl, behind⟩

end Value

/-- Names that keep clear of the punctuation of paths. -/
def isPlainName (name : String) : Bool :=
  !name.isEmpty && name.toList.all fun c => c != '.' && c != '[' && c != ':'

/-- Names that keep clear of what separates the segments of a path. -/
def isSegmentName (name : String) : Bool :=
  !name.isEmpty && name.toList.all fun c => c != '.' && c != '['

theorem isSegmentName_of_plain {name : String} (plain : isPlainName name) :
    isSegmentName name := by
  simp only [isPlainName, isSegmentName, Bool.and_eq_true, List.all_eq_true] at plain ⊢
  exact ⟨plain.1, fun c found => (plain.2 c found).1⟩

namespace Segment

def isPlain : Segment → Bool
  | .member name => isPlainName name
  | .index arguments => arguments.all Value.isPlain

/-- Segments that a text tells apart. -/
def isLegible : Segment → Bool
  | .member name => isSegmentName name
  | .index arguments => arguments.all Value.isPlain

theorem isLegible_of_plain {segment : Segment} (plain : segment.isPlain) : segment.isLegible := by
  cases segment with
  | member name => exact isSegmentName_of_plain plain
  | index arguments => exact plain

end Segment

namespace Path

def isPlain (path : Path) : Bool := path.all Segment.isPlain

def isLegible (path : Path) : Bool := path.all Segment.isLegible

theorem isLegible_of_plain {path : Path} (plain : path.isPlain) : path.isLegible := by
  simp only [isPlain, isLegible, List.all_eq_true] at plain ⊢
  exact fun segment found => Segment.isLegible_of_plain (plain segment found)

/-- The text that a segment adds, at the start of a path or behind another segment. -/
def segmentChars (atStart : Bool) : Segment → List Char
  | .member name => if atStart then name.toList else '.' :: name.toList
  | .index arguments => '[' :: (Value.argumentChars arguments ++ [']'])

def chars (atStart : Bool) : Path → List Char
  | [] => []
  | segment :: rest => segmentChars atStart segment ++ chars false rest

theorem toList_extendText (text : String) (segment : Segment) :
    (extendText text segment).toList = text.toList ++ segmentChars text.isEmpty segment := by
  cases segment with
  | member name =>
      simp only [extendText, segmentChars]
      cases empty : text.isEmpty with
      | true => simp [String.isEmpty_iff.mp empty]
      | false => simp
  | index arguments => simp [extendText, segmentChars, Value.argumentChars]

theorem segmentChars_ne_nil {segment : Segment} (legible : segment.isLegible) (atStart : Bool) :
    segmentChars atStart segment ≠ [] := by
  cases segment with
  | member name =>
      simp only [Segment.isLegible, isSegmentName, Bool.and_eq_true] at legible
      cases atStart with
      | true => simpa [segmentChars] using legible.1
      | false => exact List.cons_ne_nil _ _
  | index arguments => exact List.cons_ne_nil _ _

theorem toList_foldl_extendText {path : Path} (legible : path.isLegible) (text : String) :
    (path.foldl extendText text).toList = text.toList ++ chars text.isEmpty path := by
  induction path generalizing text with
  | nil => simp [chars]
  | cons segment rest ih =>
      simp only [isLegible, List.all_cons, Bool.and_eq_true] at legible
      have extended : (extendText text segment).isEmpty = false := by
        cases empty : (extendText text segment).isEmpty with
        | false => rfl
        | true =>
            have nothing := toList_extendText text segment
            rw [String.isEmpty_iff.mp empty] at nothing
            have added := (List.append_eq_nil_iff.mp nothing.symm).2
            exact absurd added (segmentChars_ne_nil legible.1 _)
      rw [List.foldl_cons, ih legible.2, extended, toList_extendText, chars, List.append_assoc]

/-- Where a member name ends. -/
def isNameEnd (c : Char) : Bool := c == '.' || c == '['

theorem name_clear {name : String} (named : isSegmentName name) {c : Char}
    (found : c ∈ name.toList) : isNameEnd c = false := by
  simp only [isSegmentName, Bool.and_eq_true, List.all_eq_true, bne_iff_ne] at named
  have clear := named.2 c found
  simp [isNameEnd, clear.1, clear.2]

theorem chars_ends (path : Path) : ∀ c ∈ (chars false path).head?, isNameEnd c = true := by
  cases path with
  | nil => nofun
  | cons segment rest => cases segment <;> simp [chars, segmentChars, isNameEnd]

theorem name_ne_bracket {name : String} (named : isSegmentName name) (left right : List Char) :
    name.toList ++ left ≠ '[' :: right := by
  intro same
  cases letters : name.toList with
  | nil =>
      have empty : name = "" := String.toList_inj.mp letters
      simp [isSegmentName, empty] at named
  | cons c rest =>
      have clear := name_clear named (c := c) (by rw [letters]; exact List.mem_cons_self ..)
      rw [letters, List.cons_append] at same
      rw [(List.cons.inj same).1] at clear
      cases clear

/-- The first segment of a text is determined. -/
theorem segment_append {segment other : Segment} (legible : segment.isLegible)
    (legible' : other.isLegible) {atStart : Bool} {rest rest' : Path}
    (same : segmentChars atStart segment ++ chars false rest =
      segmentChars atStart other ++ chars false rest') :
    segment = other ∧ chars false rest = chars false rest' := by
  cases segment with
  | member name =>
      cases other with
      | member name' =>
          have names : name.toList ++ chars false rest = name'.toList ++ chars false rest' := by
            cases atStart with
            | true => exact same
            | false => exact (List.cons.inj same).2
          -- A name has no dot and no bracket in it, so it ends where the next segment begins.
          obtain ⟨letters, behind⟩ := Text.split_at_stop (fun c => name_clear legible)
            (fun c => name_clear legible') (chars_ends rest) (chars_ends rest') names
          rw [String.toList_inj.mp letters]
          exact ⟨rfl, behind⟩
      | index arguments =>
          cases atStart with
          | true => exact absurd same (name_ne_bracket legible _ _)
          | false => cases (List.cons.inj same).1
  | index arguments =>
      cases other with
      | member name' =>
          cases atStart with
          | true => exact absurd same.symm (name_ne_bracket legible' _ _)
          | false => cases (List.cons.inj same).1
      | index arguments' =>
          simp only [segmentChars, List.cons_append, List.append_assoc, List.nil_append,
            List.cons.injEq, true_and] at same
          simp only [Segment.isLegible, List.all_eq_true] at legible legible'
          obtain ⟨rfl, behind⟩ := Value.argumentChars_append legible legible' same
          exact ⟨rfl, behind⟩

theorem chars_injective {path other : Path} (legible : path.isLegible) (legible' : other.isLegible)
    {atStart : Bool} (same : chars atStart path = chars atStart other) : path = other := by
  induction path generalizing other atStart with
  | nil =>
      cases other with
      | nil => rfl
      | cons segment rest =>
          simp only [isLegible, List.all_cons, Bool.and_eq_true] at legible'
          have nothing := (List.append_eq_nil_iff.mp same.symm).1
          exact absurd nothing (segmentChars_ne_nil legible'.1 atStart)
  | cons segment rest ih =>
      simp only [isLegible, List.all_cons, Bool.and_eq_true] at legible
      cases other with
      | nil =>
          have nothing := (List.append_eq_nil_iff.mp same).1
          exact absurd nothing (segmentChars_ne_nil legible.1 atStart)
      | cons segment' rest' =>
          simp only [isLegible, List.all_cons, Bool.and_eq_true] at legible'
          obtain ⟨rfl, behind⟩ := segment_append legible.1 legible'.1 same
          rw [ih legible.2 legible'.2 behind]

/-- The text of a legible path determines the path. -/
theorem eq_of_text_eq {path other : Path} (legible : path.isLegible) (legible' : other.isLegible)
    (same : path.text = other.text) : path = other := by
  have texts := congrArg String.toList same
  rw [text, text, toList_foldl_extendText legible, toList_foldl_extendText legible'] at texts
  exact chars_injective legible legible' texts

/-- The text of a plain path determines the path. -/
theorem text_injective {path other : Path} (plain : path.isPlain) (plain' : other.isPlain)
    (same : path.text = other.text) : path = other :=
  eq_of_text_eq (isLegible_of_plain plain) (isLegible_of_plain plain') same

end Path

/-- A plain name and a text with a colon between them determine both. -/
theorem keyText_injective {name name' text text' : String} (plain : isPlainName name)
    (plain' : isPlainName name') (same : name ++ ":" ++ text = name' ++ ":" ++ text') :
    name = name' ∧ text = text' := by
  have clear {name : String} (plain : isPlainName name) (c : Char) (found : c ∈ name.toList) :
      (c == ':') = false := by
    simp only [isPlainName, Bool.and_eq_true, List.all_eq_true, bne_iff_ne] at plain
    simpa using (plain.2 c found).2
  have texts := congrArg String.toList same
  simp only [String.toList_append, List.append_assoc] at texts
  obtain ⟨names, behind⟩ := Text.split_at_stop (clear plain) (clear plain')
    (by simp) (by simp) texts
  exact ⟨String.toList_inj.mp names, String.toList_inj.mp (List.cons.inj behind).2⟩

end Tether
