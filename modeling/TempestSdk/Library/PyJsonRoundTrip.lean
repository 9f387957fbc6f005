import TempestSdk.Library.PyJson

/-!
# Reading what Python wrote as JSON

What is read is the value with strings for all keys and for every object that
is no JSON, and with one entry for each key.
-/

namespace PyJson

variable {floats : FloatTexts}

mutual

def Json.canon : Json floats → Json floats
  | .list items => .list items.canon
  | .dict members => .dict (Members.nil.gather members.canon)
  | .other text => .str text
  | .none => .none
  | .bool truth => .bool truth
  | .int number => .int number
  | .float number => .float number
  | .str text => .str text

def Items.canon : Items floats → Items floats
  | .nil => .nil
  | .cons item rest => .cons item.canon rest.canon

/-- The entries as they are read, before they become a dictionary. -/
def Members.canon : Members floats → Members floats
  | .nil => .nil
  | .cons key value rest => .cons (.str key.text) value.canon rest.canon

end

/-! ## Strings -/

theorem readUnit_fixed {unit : Nat} (small : unit < 65536)
    (rest : List Char) :
    readUnit (Numerals.fixed 16 4 unit ++ rest) = some (unit, rest) := by
  have read : Numerals.read 16 (Numerals.fixed 16 4 unit) = some unit :=
    Numerals.read_fixed (by decide) (by decide) (by omega)
  have digits : ∃ a b c d, Numerals.fixed 16 4 unit = [a, b, c, d] := by
    simp [Numerals.fixed]
  obtain ⟨a, b, c, d, four⟩ := digits
  rw [four] at read ⊢
  simp [readUnit, read]

theorem charOf_toNat (char : Char) : charOf char.toNat = some char := by
  have valid : char.toNat.isValidChar := char.valid
  unfold charOf
  rw [if_pos valid, Char.ofNat_toNat]

theorem toNat_bounds (char : Char) :
    char.toNat < 55296 ∨ 57343 < char.toNat ∧ char.toNat < 1114112 := by
  have valid : char.toNat.isValidChar := char.valid
  rcases valid with low | high
  · exact Or.inl low
  · exact Or.inr ⟨high.1, high.2⟩

variable {char : Char}

theorem readCode_unit (small : char.toNat < 65536) (rest : List Char) :
    readCode (Numerals.fixed 16 4 char.toNat ++ rest) = some (char, rest) := by
  have outside := toNat_bounds char
  unfold readCode
  rw [readUnit_fixed small]
  simp only [Option.bind_some]
  rw [if_neg (by omega), charOf_toNat]
  rfl

theorem readCode_surrogates {text middle rest : List Char} {high low : Nat}
    (first : readUnit text = some (high, '\\' :: 'u' :: middle))
    (second : readUnit middle = some (low, rest))
    (isHigh : 55296 ≤ high ∧ high < 56320)
    (isLow : 56320 ≤ low ∧ low < 57344) :
    readCode text =
      (charOf (65536 + (high - 55296) * 1024 + (low - 56320))).map
        fun char => (char, rest) := by
  unfold readCode
  rw [first]
  simp only [Option.bind_some]
  rw [if_pos isHigh, second]
  simp only [Option.bind_some]
  rw [if_pos isLow]

theorem surrogates_whole {code : Nat} (large : 65536 ≤ code) :
    65536 + (55296 + (code - 65536) / 1024 - 55296) * 1024 +
      (56320 + (code - 65536) % 1024 - 56320) = code := by
  omega

theorem readCode_pair (large : 65536 ≤ char.toNat) (rest : List Char) :
    readCode (Numerals.fixed 16 4 (55296 + (char.toNat - 65536) / 1024) ++
        (unitText (56320 + (char.toNat - 65536) % 1024) ++ rest)) =
      some (char, rest) := by
  have outside := toNat_bounds char
  have highSmall : (char.toNat - 65536) / 1024 < 1024 := by omega
  have lowSmall := Nat.mod_lt (char.toNat - 65536) (show 1024 > 0 by decide)
  generalize atHigh : (char.toNat - 65536) / 1024 = high at highSmall ⊢
  generalize atLow : (char.toNat - 65536) % 1024 = low at lowSmall ⊢
  have whole := surrogates_whole large
  rw [atHigh, atLow] at whole
  unfold unitText
  rw [List.cons_append, List.cons_append,
    readCode_surrogates (readUnit_fixed (by omega) _)
      (readUnit_fixed (by omega) rest) (by omega) (by omega), whole,
    charOf_toNat]
  rfl

theorem readChar_escape (char : Char) (rest : List Char) :
    readChar (escape char ++ rest) = some (char, rest) := by
  unfold escape
  split
  · next same => rw [same]; rfl
  split
  · next same => rw [same]; rfl
  split
  · next same => rw [same]; rfl
  split
  · next same => rw [same]; rfl
  split
  · next same => rw [same]; rfl
  split
  · next same => rw [same]; rfl
  split
  · next same => rw [same]; rfl
  split
  · next notQuote notSlash _ _ _ _ _ printable =>
      simp only [List.singleton_append]
      unfold readChar
      split <;> simp_all
  · split
    · next small => exact readCode_unit small rest
    · next large =>
        rw [List.append_assoc]
        exact readCode_pair (Nat.not_lt.mp large) rest

theorem escape_head (char : Char) :
    ∃ first rest, escape char = first :: rest ∧ first ≠ '"' := by
  unfold escape unitText
  repeat' split
  all_goals first
    | exact ⟨_, _, rfl, by decide⟩
    | exact ⟨_, _, rfl, by assumption⟩

theorem scan_char {first : Char} (notQuote : first ≠ '"') (fuel : Nat)
    (behind : List Char) :
    scan (fuel + 1) (first :: behind) =
      (readChar (first :: behind)).bind fun (char, rest) =>
        (scan fuel rest).map fun (chars, rest) => (char :: chars, rest) := by
  rw [scan]
  intro rest same
  exact notQuote (List.cons.inj same).1

variable {text : List Char}

theorem scan_escaped {fuel : Nat} (enough : text.length < fuel)
    (rest : List Char) :
    scan fuel (text.flatMap escape ++ '"' :: rest) = some (text, rest) := by
  induction text generalizing fuel with
  | nil =>
    cases fuel with
    | zero => cases enough
    | succ fuel => rfl
  | cons char text induction =>
    cases fuel with
    | zero => cases enough
    | succ fuel =>
      have later := @induction fuel (by simpa using enough)
      have read := readChar_escape char
        (text.flatMap escape ++ '"' :: rest)
      obtain ⟨first, behind, shape, notQuote⟩ := escape_head char
      rw [List.flatMap_cons, List.append_assoc]
      rw [shape] at read ⊢
      rw [List.cons_append, scan_char notQuote, ← List.cons_append, read]
      simp [later]

theorem length_flatMap_escape (text : List Char) :
    text.length ≤ (text.flatMap escape).length := by
  induction text with
  | nil => exact Nat.le_refl _
  | cons char text induction =>
    obtain ⟨first, behind, shape, -⟩ := escape_head char
    simp only [List.flatMap_cons, List.length_append, List.length_cons, shape]
    omega

theorem readString_escaped (text rest : List Char) :
    readString (text.flatMap escape ++ '"' :: rest) = some (text, rest) := by
  apply scan_escaped
  have longer := length_flatMap_escape text
  simp only [List.length_append]
  omega

/-! ## Numbers -/

def Stops (rest : List Char) : Prop :=
  ∀ char ∈ rest.head?, isNumeral char = false

theorem takeWhile_numeral {token rest : List Char}
    (numeral : ∀ char ∈ token, isNumeral char = true) (stops : Stops rest) :
    (token ++ rest).takeWhile isNumeral = token := by
  rw [List.takeWhile_append_of_pos numeral]
  cases rest with
  | nil => simp
  | cons first rest => simp [stops first rfl]

theorem dropWhile_numeral {token rest : List Char}
    (numeral : ∀ char ∈ token, isNumeral char = true) (stops : Stops rest) :
    (token ++ rest).dropWhile isNumeral = rest := by
  rw [List.dropWhile_append_of_pos numeral]
  cases rest with
  | nil => rfl
  | cons first rest => simp [stops first rfl]

def Begins (token : List Char) : Prop :=
  ∃ char rest, token = char :: rest ∧
    (char.isDigit = true ∨
      char = '-' ∧ ∃ digit ∈ rest.head?, digit.isDigit = true)

theorem Begins.append {token : List Char} (begins : Begins token)
    (rest : List Char) : Begins (token ++ rest) := by
  obtain ⟨char, behind, shape, kind⟩ := begins
  refine ⟨char, behind ++ rest, by rw [shape]; rfl, ?_⟩
  rcases kind with digit | ⟨sign, digit, first, isDigit⟩
  · exact Or.inl digit
  · refine Or.inr ⟨sign, digit, ?_, isDigit⟩
    cases behind with
    | nil => cases first
    | cons => exact first

variable {rest : List Char}

theorem Begins.not_letter (begins : Begins (char :: rest))
    (letter : char.isDigit = false) (notSign : char ≠ '-') : False := by
  obtain ⟨first, behind, shape, kind⟩ := begins
  cases shape
  rcases kind with digit | ⟨sign, -⟩
  · simp [letter] at digit
  · exact notSign sign

theorem Begins.not_infinity (begins : Begins ('-' :: 'I' :: rest)) : False := by
  obtain ⟨first, behind, shape, kind⟩ := begins
  cases shape
  rcases kind with digit | ⟨-, digit, first, isDigit⟩
  · cases digit
  · cases first
    cases isDigit

theorem scalar_numeral (begins : Begins text) :
    scalar floats text = number floats text := by
  unfold scalar
  split
  · exact (begins.not_letter rfl (by decide)).elim
  · exact (begins.not_letter rfl (by decide)).elim
  · exact (begins.not_letter rfl (by decide)).elim
  · exact (begins.not_letter rfl (by decide)).elim
  · exact (begins.not_letter rfl (by decide)).elim
  · exact begins.not_infinity.elim
  · rfl

theorem begins_toDigits (value : Nat) :
    ∃ first rest, Nat.toDigits 10 value = first :: rest ∧
      first.isDigit = true := by
  obtain ⟨first, rest, shape⟩ :=
    List.exists_cons_of_ne_nil (@Nat.toDigits_ne_nil value 10)
  refine ⟨first, rest, shape, ?_⟩
  exact Nat.isDigit_of_mem_toDigits (by omega) (by omega)
    (shape ▸ List.mem_cons_self)

theorem toDigits_head {value : Nat} (positive : 0 < value) :
    (Nat.toDigits 10 value).head? ≠ some '0' := by
  induction value using Nat.strong_induction_on with
  | _ value induction =>
    by_cases small : value < 10
    · rw [Nat.toDigits_of_lt_base small]
      interval_cases value <;> decide
    · have shorter := induction (value / 10) (by omega) (by omega)
      rw [Nat.toDigits_of_base_le (by decide) (by omega)]
      obtain ⟨first, rest, shape, -⟩ := begins_toDigits (value / 10)
      rw [shape] at shorter ⊢
      exact shorter

theorem natural?_toDigits (value : Nat) :
    natural? (Nat.toDigits 10 value) = some value := by
  have digits : (Nat.toDigits 10 value).all Char.isDigit = true := by
    rw [List.all_eq_true]
    intro char member
    exact Nat.isDigit_of_mem_toDigits (by omega) (by omega) member
  have leading : (Nat.toDigits 10 value).head? = some '0' →
      Nat.toDigits 10 value = ['0'] := by
    intro zero
    rcases Nat.eq_zero_or_pos value with none | positive
    · rw [none]
      rfl
    · exact (toDigits_head positive zero).elim
  unfold natural?
  rw [if_pos ⟨Nat.toDigits_ne_nil, digits, leading⟩,
    Nat.ofDigitChars_ten_toDigits]

theorem repr_natCast (value : Nat) :
    (value : Int).repr.toList = Nat.toDigits 10 value := by
  show value.repr.toList = _
  exact Nat.toList_repr

theorem repr_negSucc (value : Nat) :
    (Int.negSucc value).repr.toList = '-' :: Nat.toDigits 10 (value + 1) := by
  show ("-" ++ (value + 1).repr).toList = _
  rw [String.toList_append, Nat.toList_repr]
  rfl

theorem begins_repr (value : Int) : Begins value.repr.toList := by
  cases value with
  | ofNat value =>
    obtain ⟨first, rest, shape, digit⟩ := begins_toDigits value
    refine ⟨first, rest, ?_, Or.inl digit⟩
    rw [Int.ofNat_eq_natCast, repr_natCast, shape]
  | negSucc value =>
    obtain ⟨first, rest, shape, digit⟩ := begins_toDigits (value + 1)
    refine ⟨'-', first :: rest, ?_, Or.inr ⟨rfl, first, rfl, digit⟩⟩
    rw [repr_negSucc, shape]

theorem integer?_repr (value : Int) :
    integer? value.repr.toList = some value := by
  cases value with
  | ofNat value =>
    obtain ⟨first, rest, shape, digit⟩ := begins_toDigits value
    have read := natural?_toDigits value
    rw [Int.ofNat_eq_natCast, repr_natCast]
    rw [shape] at read ⊢
    unfold integer?
    split
    · next sign =>
        cases (List.cons.inj sign).1
        cases digit
    · rw [read]
      rfl
  | negSucc value =>
    rw [repr_negSucc, integer?, natural?_toDigits]
    rfl

theorem numeral_repr {value : Int} (member : char ∈ value.repr.toList) :
    isNumeral char = true := by
  have digit : ∀ number : Nat, char ∈ Nat.toDigits 10 number →
      isNumeral char = true := by
    intro number inside
    have isDigit : char.isDigit = true :=
      Nat.isDigit_of_mem_toDigits (by omega) (by omega) inside
    simp [isNumeral, isDigit]
  cases value with
  | ofNat value =>
    rw [Int.ofNat_eq_natCast, repr_natCast] at member
    exact digit value member
  | negSucc value =>
    rw [repr_negSucc] at member
    rcases List.mem_cons.mp member with sign | inside
    · rw [sign]
      rfl
    · exact digit _ inside

theorem scalar_int (value : Int) (stops : Stops rest) :
    scalar floats (value.repr.toList ++ rest) = some (.int value, rest) := by
  have numeral : ∀ char ∈ value.repr.toList, isNumeral char = true :=
    fun _ => numeral_repr
  rw [scalar_numeral ((begins_repr value).append rest), number,
    takeWhile_numeral numeral stops, dropWhile_numeral numeral stops,
    integer?_repr]

theorem natural?_eq_none {digits : List Char} (member : char ∈ digits)
    (other : char.isDigit = false) : natural? digits = Option.none := by
  unfold natural?
  rw [if_neg]
  rintro ⟨-, all, -⟩
  rw [List.all_eq_true.mp all char member] at other
  cases other

theorem integer?_eq_none {token : List Char} (member : char ∈ token)
    (other : char.isDigit = false) (notSign : char ≠ '-') :
    integer? token = Option.none := by
  unfold integer?
  split
  · next digits =>
      rcases List.mem_cons.mp member with sign | inside
      · exact (notSign sign).elim
      · rw [natural?_eq_none inside other]
        rfl
  · rw [natural?_eq_none member other]
    rfl

theorem scalar_float (lawful : floats.Lawful) (value : PyFloat floats)
    (stops : Stops rest) :
    scalar floats (value.text ++ rest) = some (.float value, rest) := by
  cases value with
  | nan => rfl
  | infinity negative =>
    cases negative with
    | true => rfl
    | false => rfl
  | finite value =>
    have numeral := lawful.numeral value
    obtain ⟨char, member, other, notSign⟩ := lawful.marked value
    have begins : Begins (floats.text value) := lawful.begins value
    rw [PyFloat.text, scalar_numeral (begins.append rest), number,
      takeWhile_numeral numeral stops, dropWhile_numeral numeral stops,
      integer?_eq_none member other notSign, lawful.parse_text]
    rfl

/-! ## Values -/

abbrev Solid (char : Char) : Prop :=
  char ∉ [' ', '\t', '\n', '\r', ']', '\x7d']

def BeginsSolid (text : List Char) : Prop :=
  ∃ first rest, text = first :: rest ∧ Solid first

theorem Begins.first (begins : Begins text) :
    ∃ first rest, text = first :: rest ∧
      (first.isDigit = true ∨ first = '-') := by
  obtain ⟨first, rest, shape, kind⟩ := begins
  refine ⟨first, rest, shape, ?_⟩
  rcases kind with digit | ⟨sign, -⟩
  · exact Or.inl digit
  · exact Or.inr sign

theorem Begins.solid (begins : Begins text) : BeginsSolid text := by
  obtain ⟨first, rest, shape, kind⟩ := begins.first
  refine ⟨first, rest, shape, ?_⟩
  rcases kind with digit | sign
  · intro member
    simp only [List.mem_cons, List.not_mem_nil, or_false] at member
    rcases member with rfl | rfl | rfl | rfl | rfl | rfl
    all_goals cases digit
  · rw [sign]
    decide

theorem PyFloat.text_first (lawful : floats.Lawful) (value : PyFloat floats) :
    ∃ first rest, value.text = first :: rest ∧
      (first.isDigit = true ∨ first ∈ ['-', 'N', 'I']) := by
  cases value with
  | nan => exact ⟨_, _, rfl, Or.inr (by decide)⟩
  | infinity negative =>
    cases negative with
    | true => exact ⟨_, _, rfl, Or.inr (by decide)⟩
    | false => exact ⟨_, _, rfl, Or.inr (by decide)⟩
  | finite value =>
    have begins : Begins (floats.text value) := lawful.begins value
    obtain ⟨first, rest, shape, kind⟩ := begins.first
    refine ⟨first, rest, shape, kind.imp_right ?_⟩
    intro sign
    simp [sign]

theorem solid_of_first {first : Char}
    (kind : first.isDigit = true ∨ first ∈ ['-', 'N', 'I']) :
    Solid first := by
  intro member
  simp only [List.mem_cons, List.not_mem_nil, or_false] at member
  rcases member with rfl | rfl | rfl | rfl | rfl | rfl
  all_goals
    rcases kind with digit | letter
    · cases digit
    · simp at letter

theorem dumps_solid (lawful : floats.Lawful) (value : Json floats) :
    BeginsSolid value.dumps := by
  cases value with
  | none => exact ⟨_, _, rfl, by decide⟩
  | bool truth =>
    cases truth with
    | true => exact ⟨_, _, rfl, by decide⟩
    | false => exact ⟨_, _, rfl, by decide⟩
  | int number => exact (begins_repr number).solid
  | float number =>
    obtain ⟨first, rest, shape, kind⟩ := number.text_first lawful
    exact ⟨first, rest, shape, solid_of_first kind⟩
  | str text => exact ⟨_, _, rfl, by decide⟩
  | list items =>
    cases items with
    | nil => exact ⟨_, _, rfl, by decide⟩
    | cons item rest => exact ⟨_, _, rfl, by decide⟩
  | dict members =>
    cases members with
    | nil => exact ⟨_, _, rfl, by decide⟩
    | cons key value rest => exact ⟨_, _, rfl, by decide⟩
  | other text => exact ⟨_, _, rfl, by decide⟩

theorem skip_solid (solid : BeginsSolid text) : skip text = text := by
  obtain ⟨first, rest, rfl, plain⟩ := solid
  unfold Solid at plain
  simp only [List.mem_cons, List.not_mem_nil, or_false, not_or] at plain
  simp [skip, plain]

theorem BeginsSolid.append (solid : BeginsSolid text) (rest : List Char) :
    BeginsSolid (text ++ rest) := by
  obtain ⟨first, behind, rfl, plain⟩ := solid
  exact ⟨first, behind ++ rest, rfl, plain⟩

theorem readValue_scalar {first : Char} (fuel : Nat) (rest : List Char)
    (plain : first ∉ ['"', '[', '\x7b']) :
    readValue floats (fuel + 1) (first :: rest) =
      scalar floats (first :: rest) := by
  rw [readValue]
  all_goals
    intro behind same
    rw [(List.cons.inj same).1] at plain
    exact plain (by decide)

@[grind =] def Items.body : Items floats → List Char
  | .nil => []
  | .cons item rest => item.dumps ++ rest.dumpsTail

@[grind =] def Members.body : Members floats → List Char
  | .nil => []
  | .cons key value rest => quoted key.text ++ ':' :: ' ' :: value.dumps ++ rest.dumpsTail

theorem dumps_list (items : Items floats) :
    (Json.list items).dumps = '[' :: items.body ++ [']'] := by
  cases items with
  | nil => simp [Json.dumps, Items.body]
  | cons item rest => simp [Json.dumps, Items.body]

theorem dumps_dict (members : Members floats) :
    (Json.dict members).dumps = '\x7b' :: members.body ++ ['\x7d'] := by
  cases members with
  | nil => simp [Json.dumps, Members.body]
  | cons key value rest => simp [Json.dumps, Members.body]

theorem dumpsTail_items {items : Items floats} (nonempty : items ≠ .nil) :
    items.dumpsTail = ',' :: ' ' :: items.body := by
  cases items with
  | nil => exact (nonempty rfl).elim
  | cons item rest => simp [Items.dumpsTail, Items.body]

theorem dumpsTail_members {members : Members floats}
    (nonempty : members ≠ .nil) :
    members.dumpsTail = ',' :: ' ' :: members.body := by
  cases members with
  | nil => exact (nonempty rfl).elim
  | cons key value rest => simp [Members.dumpsTail, Members.body]

theorem stops_cons (plain : isNumeral char = false) : Stops (char :: rest) := by
  intro first same
  cases same
  exact plain

theorem skip_space (text : List Char) : skip (' ' :: text) = skip text := by
  simp [skip]

theorem items_solid (lawful : floats.Lawful) {items : Items floats}
    (nonempty : items ≠ .nil) : BeginsSolid items.body := by
  cases items with
  | nil => exact (nonempty rfl).elim
  | cons item rest => exact (dumps_solid lawful item).append _

theorem members_solid {members : Members floats}
    (nonempty : members ≠ .nil) : BeginsSolid members.body := by
  cases members with
  | nil => exact (nonempty rfl).elim
  | cons key value rest => exact ⟨_, _, rfl, by decide⟩

mutual

theorem readValue_dumps (lawful : floats.Lawful) (value : Json floats)
    {fuel : Nat} {rest : List Char} (enough : value.dumps.length < fuel)
    (stops : Stops rest) :
    readValue floats fuel (value.dumps ++ rest) =
      some (value.canon, rest) := by
  cases fuel with
  | zero => cases enough
  | succ fuel =>
    cases value with
    | none => rfl
    | bool truth =>
      cases truth with
      | true => rfl
      | false => rfl
    | int number =>
      obtain ⟨first, behind, shape, kind⟩ := (begins_repr number).first
      have read : scalar floats (number.repr.toList ++ rest) =
          some (.int number, rest) := scalar_int number stops
      rw [Json.dumps]
      rw [shape] at read ⊢
      rw [List.cons_append, readValue_scalar, ← List.cons_append, read]
      · rfl
      · intro member
        simp only [List.mem_cons, List.not_mem_nil, or_false] at member
        rcases member with rfl | rfl | rfl
        all_goals simp at kind
    | float number =>
      obtain ⟨first, behind, shape, kind⟩ := number.text_first lawful
      have read := scalar_float lawful number stops
      rw [Json.dumps]
      rw [shape] at read ⊢
      rw [List.cons_append, readValue_scalar, ← List.cons_append, read]
      · rfl
      · intro member
        simp only [List.mem_cons, List.not_mem_nil, or_false] at member
        rcases member with rfl | rfl | rfl
        all_goals simp at kind
    | str text =>
      have read := readString_escaped text rest
      simp [Json.dumps, quoted, readValue, read, Json.canon]
    | other text =>
      have read := readString_escaped text rest
      simp [Json.dumps, quoted, readValue, read, Json.canon]
    | list items =>
      rw [dumps_list] at enough ⊢
      rw [List.append_assoc, List.cons_append, readValue]
      by_cases empty : items = .nil
      · subst empty
        rfl
      · have shorter : items.body.length + 1 < fuel := by
          simp at enough
          omega
        have read : readItems floats fuel (items.body ++ ']' :: rest) =
            some (items.canon, rest) :=
          readItems_body lawful items empty shorter
        have solid : BeginsSolid (items.body ++ ']' :: rest) :=
          (items_solid lawful empty).append _
        have skipped := skip_solid solid
        obtain ⟨first, behind, shape, plain⟩ := solid
        simp only [List.singleton_append]
        rw [skipped, shape]
        split
        · next same =>
            rw [(List.cons.inj same).1] at plain
            exact (plain (by decide)).elim
        · rw [← shape, read]
          rfl
    | dict members =>
      rw [dumps_dict] at enough ⊢
      rw [List.append_assoc, List.cons_append, readValue]
      by_cases empty : members = .nil
      · subst empty
        rfl
      · have shorter : members.body.length + 1 < fuel := by
          simp at enough
          omega
        have read : readMembers floats fuel
            (members.body ++ '\x7d' :: rest) =
              some (members.canon, rest) :=
          readMembers_body lawful members empty shorter
        have solid : BeginsSolid (members.body ++ '\x7d' :: rest) :=
          (members_solid empty).append _
        have skipped := skip_solid solid
        obtain ⟨first, behind, shape, plain⟩ := solid
        simp only [List.singleton_append]
        rw [skipped, shape]
        split
        · next same =>
            rw [(List.cons.inj same).1] at plain
            exact (plain (by decide)).elim
        · rw [← shape, read]
          rfl

theorem readItems_body (lawful : floats.Lawful) (items : Items floats)
    (nonempty : items ≠ .nil) {fuel : Nat} {rest : List Char}
    (enough : items.body.length + 1 < fuel) :
    readItems floats fuel (items.body ++ ']' :: rest) =
      some (items.canon, rest) := by
  cases fuel with
  | zero => cases enough
  | succ fuel =>
    cases items with
    | nil => exact (nonempty rfl).elim
    | cons item items =>
      obtain ⟨first, behind, shape, -⟩ := dumps_solid lawful item
      have lengths := congrArg List.length shape
      rw [Items.body] at enough ⊢
      simp only [List.length_append, List.length_cons] at enough lengths
      rw [List.append_assoc, readItems]
      by_cases last : items = .nil
      · subst last
        have read : readValue floats fuel (item.dumps ++ ']' :: rest) =
            some (item.canon, ']' :: rest) :=
          readValue_dumps lawful item (by omega) (stops_cons (by decide))
        simp only [Items.dumpsTail, List.nil_append, read,
          Option.bind_some]
        rfl
      · have read : readValue floats fuel
            (item.dumps ++ (items.dumpsTail ++ ']' :: rest)) =
              some (item.canon, items.dumpsTail ++ ']' :: rest) := by
          rw [dumpsTail_items last]
          apply readValue_dumps lawful item (by omega)
          exact stops_cons (by decide)
        have tail := dumpsTail_items last
        have tailLength := congrArg List.length tail
        simp only [List.length_cons] at tailLength
        have later : readItems floats fuel (items.body ++ ']' :: rest) =
            some (items.canon, rest) :=
          readItems_body lawful items last (by omega)
        have skipped : skip (' ' :: (items.body ++ ']' :: rest)) =
            items.body ++ ']' :: rest := by
          rw [skip_space]
          exact skip_solid ((items_solid lawful last).append _)
        have comma : skip (items.dumpsTail ++ ']' :: rest) =
            ',' :: ' ' :: (items.body ++ ']' :: rest) := by
          rw [tail]
          exact skip_solid ⟨_, _, rfl, by decide⟩
        simp only [read, Option.bind_some, comma, skipped, later]
        rfl

theorem readMembers_body (lawful : floats.Lawful) (members : Members floats)
    (nonempty : members ≠ .nil) {fuel : Nat} {rest : List Char}
    (enough : members.body.length + 1 < fuel) :
    readMembers floats fuel (members.body ++ '\x7d' :: rest) =
      some (members.canon, rest) := by
  cases fuel with
  | zero => cases enough
  | succ fuel =>
    cases members with
    | nil => exact (nonempty rfl).elim
    | cons key value members =>
      have shape : (Members.cons key value members).body ++
          '\x7d' :: rest =
            '"' :: (key.text.flatMap escape ++ '"' ::
              (':' :: ' ' :: (value.dumps ++
                (members.dumpsTail ++ '\x7d' :: rest)))) := by
        simp [Members.body, quoted]
      have named := readString_escaped key.text
        (':' :: ' ' :: (value.dumps ++
          (members.dumpsTail ++ '\x7d' :: rest)))
      have valueSkipped : skip (' ' :: (value.dumps ++
          (members.dumpsTail ++ '\x7d' :: rest))) =
            value.dumps ++ (members.dumpsTail ++ '\x7d' :: rest) := by
        rw [skip_space]
        exact skip_solid ((dumps_solid lawful value).append _)
      have colon : skip (':' :: ' ' :: (value.dumps ++
          (members.dumpsTail ++ '\x7d' :: rest))) =
            ':' :: ' ' :: (value.dumps ++
              (members.dumpsTail ++ '\x7d' :: rest)) :=
        skip_solid ⟨_, _, rfl, by decide⟩
      have lengths := congrArg List.length shape
      simp only [List.length_append, List.length_cons] at enough lengths
      rw [shape, readMembers, named]
      simp only [Option.bind_some, colon, valueSkipped]
      by_cases last : members = .nil
      · subst last
        have read : readValue floats fuel (value.dumps ++ '\x7d' :: rest) =
            some (value.canon, '\x7d' :: rest) :=
          readValue_dumps lawful value (by omega) (stops_cons (by decide))
        simp only [Members.dumpsTail, List.nil_append, read,
          Option.bind_some]
        rfl
      · have tail := dumpsTail_members last
        have tailLength := congrArg List.length tail
        simp only [List.length_cons] at tailLength
        have read : readValue floats fuel
            (value.dumps ++ (members.dumpsTail ++ '\x7d' :: rest)) =
              some (value.canon, members.dumpsTail ++ '\x7d' :: rest) := by
          rw [tail]
          apply readValue_dumps lawful value (by omega)
          exact stops_cons (by decide)
        have later : readMembers floats fuel
            (members.body ++ '\x7d' :: rest) =
              some (members.canon, rest) :=
          readMembers_body lawful members last (by omega)
        have skipped : skip (' ' :: (members.body ++ '\x7d' :: rest)) =
            members.body ++ '\x7d' :: rest := by
          rw [skip_space]
          exact skip_solid ((members_solid last).append _)
        have comma : skip (members.dumpsTail ++ '\x7d' :: rest) =
            ',' :: ' ' :: (members.body ++ '\x7d' :: rest) := by
          rw [tail]
          exact skip_solid ⟨_, _, rfl, by decide⟩
        simp only [read, Option.bind_some, comma, skipped, later]
        rfl

end

theorem loads_dumps (lawful : floats.Lawful) (value : Json floats) :
    loads floats value.dumps = some value.canon := by
  have skipped := skip_solid (dumps_solid lawful value)
  have read : readValue floats (value.dumps.length + 1) (value.dumps ++ []) =
      some (value.canon, []) :=
    readValue_dumps lawful value (Nat.lt_succ_self _) (by intro char none; cases none)
  rw [List.append_nil] at read
  unfold loads
  rw [skipped, read]
  rfl

/-! ## Keys that become one -/

def Members.keys : Members floats → List (List Char)
  | .nil => []
  | .cons key _ rest => key.text :: rest.keys

mutual

/-- No two keys of one dictionary have the same text, at any depth. -/
def Json.Distinct : Json floats → Prop
  | .list items => items.Distinct
  | .dict members => members.keys.Nodup ∧ members.Distinct
  | _ => True

def Items.Distinct : Items floats → Prop
  | .nil => True
  | .cons item rest => item.Distinct ∧ rest.Distinct

def Members.Distinct : Members floats → Prop
  | .nil => True
  | .cons _ value rest => value.Distinct ∧ rest.Distinct

end

def entryLength (key : List Char) (value : Json floats) : Nat :=
  (quoted key).length + value.dumps.length + 4

theorem length_dumpsTail_cons (key : Key floats) (value : Json floats)
    (rest : Members floats) :
    (Members.cons key value rest).dumpsTail.length =
      entryLength key.text value + rest.dumpsTail.length := by
  simp only [Members.dumpsTail, List.length_cons, List.length_append,
    entryLength]
  omega

theorem set_new {key : List Char} {value : Json floats}
    {known : Members floats} (new : key ∉ known.keys) :
    (known.set key value).keys = known.keys ++ [key] ∧
      (known.set key value).dumpsTail =
        known.dumpsTail ++ (Members.cons (.str key) value .nil).dumpsTail := by
  cases known with
  | nil => simp [Members.set, Members.keys, Members.dumpsTail, Key.text]
  | cons first old rest =>
    simp only [Members.keys, List.mem_cons, not_or] at new
    have other : first.text ≠ key := Ne.symm new.1
    obtain ⟨keys, tail⟩ := @set_new key value rest new.2
    rw [Members.set, if_neg other]
    simp only [Members.keys, Members.dumpsTail, keys, tail,
      List.cons_append, List.append_assoc]
    exact ⟨trivial, trivial⟩

theorem set_known {key : List Char} {value : Json floats}
    {known : Members floats} (old : key ∈ known.keys) :
    (known.set key value).keys = known.keys ∧
      (known.set key value).dumpsTail.length <
        known.dumpsTail.length + entryLength key value := by
  cases known with
  | nil => cases old
  | cons first previous rest =>
    by_cases same : first.text = key
    · rw [Members.set, if_pos same, length_dumpsTail_cons,
        length_dumpsTail_cons]
      constructor
      · rw [Members.keys, Members.keys, same]
        rfl
      · simp only [entryLength, Key.text]
        omega
    · have later : key ∈ rest.keys := by
        rcases List.mem_cons.mp old with here | later
        · exact (same here.symm).elim
        · exact later
      obtain ⟨keys, shorter⟩ := @set_known key value rest later
      rw [Members.set, if_neg same, length_dumpsTail_cons,
        length_dumpsTail_cons]
      refine ⟨by simp [Members.keys, keys], ?_⟩
      omega

def Fresh (known members : Members floats) : Prop :=
  (∀ key ∈ members.keys, key ∉ known.keys) ∧ members.keys.Nodup

theorem gather_spec (known members : Members floats) :
    (Fresh known members →
        (known.gather members).dumpsTail =
          known.dumpsTail ++ members.dumpsTail) ∧
      (¬ Fresh known members →
        (known.gather members).dumpsTail.length <
          known.dumpsTail.length + members.dumpsTail.length) := by
  cases members with
  | nil => simp [Fresh, Members.gather, Members.keys, Members.dumpsTail]
  | cons key value rest =>
    obtain ⟨kept, lost⟩ := gather_spec (known.set key.text value) rest
    have whole := length_dumpsTail_cons key value rest
    by_cases old : key.text ∈ known.keys
    · obtain ⟨keys, shorter⟩ := @set_known floats key.text value known old
      constructor
      · intro fresh
        exact (fresh.1 key.text (by simp [Members.keys]) old).elim
      · intro _
        have least : ((known.set key.text value).gather rest).dumpsTail.length ≤
            (known.set key.text value).dumpsTail.length +
              rest.dumpsTail.length := by
          by_cases fresh : Fresh (known.set key.text value) rest
          · rw [kept fresh, List.length_append]
          · exact Nat.le_of_lt (lost fresh)
        rw [Members.gather]
        omega
    · obtain ⟨keys, tail⟩ := @set_new floats key.text value known old
      have fresh_iff : Fresh known (.cons key value rest) ↔
          Fresh (known.set key.text value) rest := by
        unfold Fresh
        rw [keys]
        simp only [Members.keys, List.mem_cons, List.nodup_cons,
          List.mem_append, List.not_mem_nil, or_false, not_or]
        constructor
        · intro ⟨new, alone, nodup⟩
          refine ⟨?_, nodup⟩
          intro other member
          refine ⟨new other (Or.inr member), ?_⟩
          intro same
          exact alone (same ▸ member)
        · intro ⟨new, nodup⟩
          refine ⟨?_, ?_, nodup⟩
          · intro other member
            rcases member with same | member
            · exact same ▸ old
            · exact (new other member).1
          · intro member
            exact (new key.text member).2 rfl
      have one := length_dumpsTail_cons (.str key.text) value .nil
      have tailLength := congrArg List.length tail
      simp only [List.length_append, Members.dumpsTail, List.length_nil,
        Key.text] at one tailLength
      rw [fresh_iff, Members.gather]
      constructor
      · intro fresh
        rw [kept fresh, tail]
        simp [Members.dumpsTail, Key.text]
      · intro collision
        have shorter := lost collision
        simp only [Members.dumpsTail, List.length_append, List.length_cons,
          Key.text] at tailLength shorter ⊢
        omega

/-- The text of `value` behind the change is the same when nothing was lost,
and shorter when something was. -/
def Shrinks (distinct : Prop) (text canon : List Char) : Prop :=
  (distinct → canon = text) ∧ (¬ distinct → canon.length < text.length)

theorem Shrinks.le {distinct : Prop} {text canon : List Char}
    (shrinks : Shrinks distinct text canon) : canon.length ≤ text.length := by
  by_cases whole : distinct
  · rw [shrinks.1 whole]
  · exact Nat.le_of_lt (shrinks.2 whole)

theorem Shrinks.append {first second : Prop} {a b c d : List Char}
    (left : Shrinks first a b) (right : Shrinks second c d) :
    Shrinks (first ∧ second) (a ++ c) (b ++ d) := by
  constructor
  · intro both
    rw [left.1 both.1, right.1 both.2]
  · intro lost
    simp only [List.length_append]
    have leftLe := left.le
    have rightLe := right.le
    by_cases whole : first
    · have := right.2 fun second => lost ⟨whole, second⟩
      omega
    · have := left.2 whole
      omega

theorem Shrinks.around {distinct : Prop} {text canon : List Char}
    (shrinks : Shrinks distinct text canon) (before behind : List Char) :
    Shrinks distinct (before ++ text ++ behind) (before ++ canon ++ behind) := by
  constructor
  · intro whole
    rw [shrinks.1 whole]
  · intro lost
    have := shrinks.2 lost
    simp only [List.length_append]
    omega

theorem Shrinks.trans {first second : Prop} {a b c : List Char}
    (outer : Shrinks first a b) (inner : Shrinks second b c) :
    Shrinks (second ∧ first) a c := by
  constructor
  · intro both
    rw [inner.1 both.1, outer.1 both.2]
  · intro lost
    have outerLe := outer.le
    have innerLe := inner.le
    by_cases whole : second
    · have := outer.2 fun first => lost ⟨whole, first⟩
      omega
    · have := inner.2 whole
      omega

theorem canon_keys (members : Members floats) :
    members.canon.keys = members.keys := by
  cases members with
  | nil => rfl
  | cons key value rest => simp [Members.canon, Members.keys, Key.text, canon_keys rest]

theorem Shrinks.refl (text : List Char) : Shrinks True text text :=
  ⟨fun _ => rfl, fun lost => (lost trivial).elim⟩

theorem Shrinks.drop {distinct : Prop} {text canon : List Char}
    (shrinks : Shrinks distinct text canon)
    (entry : text = [] ∨ 2 < text.length) :
    Shrinks distinct (text.drop 2) (canon.drop 2) := by
  constructor
  · intro whole
    rw [shrinks.1 whole]
  · intro lost
    have shorter := shrinks.2 lost
    simp only [List.length_drop]
    rcases entry with empty | long
    · simp [empty] at shorter
    · omega

theorem dumps_list_drop (items : Items floats) :
    (Json.list items).dumps = ['['] ++ items.dumpsTail.drop 2 ++ [']'] := by
  cases items with
  | nil => rfl
  | cons item rest => simp [Json.dumps, Items.dumpsTail]

theorem dumps_dict_drop (members : Members floats) :
    (Json.dict members).dumps =
      ['\x7b'] ++ members.dumpsTail.drop 2 ++ ['\x7d'] := by
  cases members with
  | nil => rfl
  | cons key value rest => simp [Json.dumps, Members.dumpsTail]

theorem items_entry (lawful : floats.Lawful) (items : Items floats) :
    items.dumpsTail = [] ∨ 2 < items.dumpsTail.length := by
  cases items with
  | nil => exact Or.inl rfl
  | cons item rest =>
    obtain ⟨first, behind, shape, -⟩ := dumps_solid lawful item
    right
    simp only [Items.dumpsTail, shape, List.length_append, List.length_cons]
    omega

theorem members_entry (members : Members floats) :
    members.dumpsTail = [] ∨ 2 < members.dumpsTail.length := by
  cases members with
  | nil => exact Or.inl rfl
  | cons key value rest =>
    right
    rw [length_dumpsTail_cons, entryLength]
    omega

theorem gather_shrinks (members : Members floats) :
    Shrinks members.keys.Nodup members.dumpsTail
      (Members.nil.gather members).dumpsTail := by
  have fresh : members.keys.Nodup ↔ Fresh .nil members := by
    simp [Fresh, Members.keys]
  obtain ⟨kept, lost⟩ := gather_spec .nil members
  rw [Shrinks, fresh]
  refine ⟨kept, ?_⟩
  intro collision
  have shorter := lost collision
  simp only [Members.dumpsTail, List.length_nil] at shorter
  omega

mutual

theorem Json.canon_shrinks (lawful : floats.Lawful) (value : Json floats) :
    Shrinks value.Distinct value.dumps value.canon.dumps := by
  cases value with
  | none => exact Shrinks.refl _
  | bool truth => exact Shrinks.refl _
  | int number => exact Shrinks.refl _
  | float number => exact Shrinks.refl _
  | str text => exact Shrinks.refl _
  | other text => exact Shrinks.refl _
  | list items =>
    have shrinks := items.canon_shrinks lawful
    rw [Json.canon, dumps_list_drop, dumps_list_drop]
    exact (shrinks.drop (items_entry lawful items)).around _ _
  | dict members =>
    have inner := members.canon_shrinks lawful
    have outer := gather_shrinks members.canon
    rw [canon_keys] at outer
    have shrinks := inner.trans outer
    rw [Json.canon, dumps_dict_drop, dumps_dict_drop]
    exact (shrinks.drop (members_entry members)).around _ _

theorem Items.canon_shrinks (lawful : floats.Lawful) (items : Items floats) :
    Shrinks items.Distinct items.dumpsTail items.canon.dumpsTail := by
  cases items with
  | nil => exact Shrinks.refl _
  | cons item rest =>
    have first := item.canon_shrinks lawful
    have later := rest.canon_shrinks lawful
    have both := (first.append later).around [',', ' '] []
    simp only [Items.canon, Items.dumpsTail, Items.Distinct]
    simpa using both

theorem Members.canon_shrinks (lawful : floats.Lawful)
    (members : Members floats) :
    Shrinks members.Distinct members.dumpsTail members.canon.dumpsTail := by
  cases members with
  | nil => exact Shrinks.refl _
  | cons key value rest =>
    have first := value.canon_shrinks lawful
    have later := rest.canon_shrinks lawful
    have both := (first.append later).around
      (',' :: ' ' :: quoted key.text ++ [':', ' ']) []
    have named : (Key.str key.text : Key floats).text = key.text := rfl
    simp only [Members.canon, Members.dumpsTail, Members.Distinct, named]
    simpa using both

end

/-! ## Printable text -/

def Printable (text : List Char) : Prop :=
  ∀ char ∈ text, 32 ≤ char.toNat ∧ char.toNat ≤ 126

instance (text : List Char) : Decidable (Printable text) :=
  List.decidableBAll (fun char : Char => 32 ≤ char.toNat ∧ char.toNat ≤ 126)
    text

theorem Printable.append {text rest : List Char} (left : Printable text)
    (right : Printable rest) : Printable (text ++ rest) := by
  intro char member
  rcases List.mem_append.mp member with inLeft | inRight
  · exact left char inLeft
  · exact right char inRight

theorem Printable.cons (first : 32 ≤ char.toNat ∧ char.toNat ≤ 126)
    (right : Printable rest) : Printable (char :: rest) := by
  intro other member
  rcases List.mem_cons.mp member with same | later
  · exact same ▸ first
  · exact right other later

theorem printable_nil : Printable [] := by
  intro char member
  cases member

theorem printable_of_numeral (numeral : ∀ char ∈ text, isNumeral char = true) :
    Printable text := by
  intro char member
  have kind := numeral char member
  simp only [isNumeral, Bool.or_eq_true, decide_eq_true_eq, List.mem_cons,
    List.not_mem_nil, or_false] at kind
  rcases kind with digit | rfl | rfl | rfl | rfl | rfl
  · simp only [Char.isDigit, Bool.and_eq_true, decide_eq_true_eq] at digit
    obtain ⟨low, high⟩ := digit
    have least : 48 ≤ char.toNat := low
    have most : char.toNat ≤ 57 := high
    omega
  all_goals decide

theorem printable_unitText (unit : Nat) : Printable (unitText unit) := by
  refine .cons (by decide) (.cons (by decide) ?_)
  intro char member
  obtain ⟨value, small, rfl⟩ := Numerals.mem_fixed (by decide) member
  interval_cases value <;> decide

theorem printable_escape (char : Char) : Printable (escape char) := by
  unfold escape
  split
  · exact .cons (by decide) (.cons (by decide) printable_nil)
  split
  · exact .cons (by decide) (.cons (by decide) printable_nil)
  split
  · exact .cons (by decide) (.cons (by decide) printable_nil)
  split
  · exact .cons (by decide) (.cons (by decide) printable_nil)
  split
  · exact .cons (by decide) (.cons (by decide) printable_nil)
  split
  · exact .cons (by decide) (.cons (by decide) printable_nil)
  split
  · exact .cons (by decide) (.cons (by decide) printable_nil)
  split
  · next plain => exact .cons plain printable_nil
  split
  · exact printable_unitText _
  · exact (printable_unitText _).append (printable_unitText _)

theorem printable_quoted (text : List Char) : Printable (quoted text) := by
  refine .cons (by decide) (.append ?_ (.cons (by decide) printable_nil))
  intro char member
  obtain ⟨original, -, inside⟩ := List.mem_flatMap.mp member
  exact printable_escape original char inside

theorem printable_float (lawful : floats.Lawful) (value : PyFloat floats) :
    Printable value.text := by
  cases value with
  | nan => exact (by decide : Printable ['N', 'a', 'N'])
  | infinity negative =>
    have plain : Printable ['I', 'n', 'f', 'i', 'n', 'i', 't', 'y'] := by
      decide
    cases negative with
    | true => exact .cons (by decide) plain
    | false => exact plain
  | finite value => exact printable_of_numeral (lawful.numeral value)

mutual

theorem Json.printable (lawful : floats.Lawful) (value : Json floats) :
    Printable value.dumps := by
  cases value with
  | none => exact (by decide : Printable ['n', 'u', 'l', 'l'])
  | bool truth =>
    cases truth with
    | true => exact (by decide : Printable ['t', 'r', 'u', 'e'])
    | false => exact (by decide : Printable ['f', 'a', 'l', 's', 'e'])
  | int number => exact printable_of_numeral fun _ => numeral_repr
  | float number => exact printable_float lawful number
  | str text => exact printable_quoted text
  | other text => exact printable_quoted text
  | list items =>
    rw [dumps_list_drop]
    refine .append (.append (.cons (by decide) printable_nil) ?_)
      (.cons (by decide) printable_nil)
    intro char member
    exact items.printable lawful char (List.mem_of_mem_drop member)
  | dict members =>
    rw [dumps_dict_drop]
    refine .append (.append (.cons (by decide) printable_nil) ?_)
      (.cons (by decide) printable_nil)
    intro char member
    exact members.printable lawful char (List.mem_of_mem_drop member)

theorem Items.printable (lawful : floats.Lawful) (items : Items floats) :
    Printable items.dumpsTail := by
  cases items with
  | nil => exact printable_nil
  | cons item rest =>
    exact .cons (by decide) (.cons (by decide)
      (.append (item.printable lawful) (rest.printable lawful)))

theorem Members.printable (lawful : floats.Lawful)
    (members : Members floats) : Printable members.dumpsTail := by
  cases members with
  | nil => exact printable_nil
  | cons key value rest =>
    have named : Printable (quoted key.text ++
        ':' :: ' ' :: value.dumps) :=
      .append (printable_quoted _) (.cons (by decide) (.cons (by decide)
        (value.printable lawful)))
    have written := Printable.append named (rest.printable lawful)
    refine .cons (by decide) (.cons (by decide) ?_)
    simpa using written

end

end PyJson
