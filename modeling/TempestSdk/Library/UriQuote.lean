import TempestSdk.Library.Joined
import TempestSdk.Library.PyBytes
import TempestSdk.Library.PyStrings

/-!
# Quoting in URLs

`quote` writes the bytes of a text that are not safe with a percent sign, and
`unquote` reads them back.  In a query a space is written as a plus sign, and
the names and values are joined with the signs that quoting keeps out of them.
-/

namespace UriQuote

abbrev Text := List Char

/-- `str.encode("utf-8")`. -/
def encode (text : Text) : List UInt8 := text.flatMap String.utf8EncodeChar

def alwaysSafe (char : Char) : Bool :=
  char.isAlphanum || ['_', '.', '-', '~'].contains char

def upperDigit (value : Nat) : Char :=
  if value < 10 then Char.ofNat (48 + value) else Char.ofNat (55 + value)

def quoteByte (safe : Text) (byte : UInt8) : Text :=
  let char := Char.ofNat byte.toNat
  if alwaysSafe char || safe.contains char then [char]
  else ['%', upperDigit (byte.toNat / 16), upperDigit (byte.toNat % 16)]

/-- `quote(text, safe)`. -/
def quote (safe text : Text) : Text := (encode text).flatMap (quoteByte safe)

def hexByte (high low : Char) : Option UInt8 :=
  (Numerals.read 16 [high, low]).map UInt8.ofNat

/-- The bytes of a text, those of its percent signs read. -/
def unquoteBytes : Text → List UInt8
  | [] => []
  | '%' :: high :: low :: rest =>
    match hexByte high low with
    | some byte => byte :: unquoteBytes rest
    | none => String.utf8EncodeChar '%' ++ unquoteBytes (high :: low :: rest)
  | char :: rest => String.utf8EncodeChar char ++ unquoteBytes rest

/-- `unquote(text)`, when the bytes are those of a text. -/
def unquote (text : Text) : Option Text := PyBytes.decode (unquoteBytes text)

theorem decode_encode_text (text : Text) : PyBytes.decode (encode text) = some text := by
  unfold PyBytes.decode encode
  have decoded := @List.utf8Decode?_utf8Encode text
  unfold List.utf8Encode at decoded
  rw [decoded]
  simp

theorem hexByte_upperDigit (byte : UInt8) :
    hexByte (upperDigit (byte.toNat / 16)) (upperDigit (byte.toNat % 16)) = some byte := by
  have bound := byte.toNat_lt
  have all : ∀ high < 16, ∀ low < 16, Numerals.read 16 [upperDigit high, upperDigit low] =
        some (high * 16 + low) := by
    decide
  unfold hexByte
  rw [all _ (by omega) _ (by omega), Option.map_some]
  have whole : byte.toNat / 16 * 16 + byte.toNat % 16 = byte.toNat := by omega
  rw [whole, UInt8.ofNat_toNat]

theorem unquoteBytes_other {char : Char} (other : char ≠ '%') (rest : Text) :
    unquoteBytes (char :: rest) = String.utf8EncodeChar char ++ unquoteBytes rest := by
  rw [unquoteBytes.eq_def]
  split
  next same => cases same
  next same =>
    cases same
    exact (other rfl).elim
  next same =>
    cases same
    rfl

theorem mem_quote {safe text : Text} {char : Char} (member : char ∈ quote safe text) :
    alwaysSafe char = true ∨ char ∈ safe ∨ char = '%' := by
  have digits : ∀ value < 16, alwaysSafe (upperDigit value) = true := by
    decide
  obtain ⟨byte, _present, written⟩ := List.mem_flatMap.mp member
  have bound := byte.toNat_lt
  unfold quoteByte at written
  dsimp only at written
  split at written
  case isTrue plain =>
    rw [List.mem_singleton.mp written]
    rcases (Bool.or_eq_true _ _).mp plain with always | extra
    · exact .inl always
    · exact .inr (.inl (List.contains_iff_mem.mp extra))
  case isFalse quoted =>
    simp only [List.mem_cons, List.not_mem_nil, or_false] at written
    rcases written with rfl | rfl | rfl
    · exact .inr (.inr rfl)
    · exact .inl (digits _ (by omega))
    · exact .inl (digits _ (by omega))

theorem not_mem_quote {safe text : Text} {char : Char}
    (quoted : alwaysSafe char = false) (unsafe_char : char ∉ safe)
    (sign : char ≠ '%') : char ∉ quote safe text := by
  intro member
  rcases mem_quote member with always | extra | percent
  · rw [quoted] at always
    cases always
  · exact unsafe_char extra
  · exact sign percent

theorem utf8_ascii {byte : UInt8} (ascii : byte.toNat < 128) :
    String.utf8EncodeChar (Char.ofNat byte.toNat) = [byte] := by
  have all : ∀ value < 128, String.utf8EncodeChar (Char.ofNat value) = [UInt8.ofNat value] := by
    decide
  rw [all _ ascii, UInt8.ofNat_toNat]

theorem ofNat_toNat_byte (byte : UInt8) : (Char.ofNat byte.toNat).toNat = byte.toNat := by
  have bound := byte.toNat_lt
  have valid : byte.toNat.isValidChar := .inl (by omega)
  unfold Char.ofNat
  rw [dif_pos valid]
  rfl

theorem alwaysSafe_ascii {byte : UInt8} (always : alwaysSafe (Char.ofNat byte.toNat) = true) :
    byte.toNat < 128 ∧ Char.ofNat byte.toNat ≠ '%' := by
  constructor
  · rw [← ofNat_toNat_byte byte]
    rcases Bool.or_eq_true_iff.mp always with letter | mark
    · have code := PyStrings.code_of_alphanum letter
      omega
    · rw [List.contains_iff_mem] at mark
      simp only [List.mem_cons, List.not_mem_nil, or_false] at mark
      rcases mark with same | same | same | same <;> rw [same] <;> decide
  · intro sign
    rw [sign] at always
    exact absurd always (by decide)

theorem unquoteBytes_quoteByte {safe : Text}
    (ascii : ∀ char ∈ safe, char.toNat < 128 ∧ char ≠ '%') (byte : UInt8)
    (rest : Text) :
    unquoteBytes (quoteByte safe byte ++ rest) = byte :: unquoteBytes rest := by
  unfold quoteByte
  dsimp only
  split
  case isTrue plain =>
    have kept : byte.toNat < 128 ∧ Char.ofNat byte.toNat ≠ '%' := by
      rcases (Bool.or_eq_true _ _).mp plain with always | extra
      · exact alwaysSafe_ascii always
      · have found := ascii _ (List.contains_iff_mem.mp extra)
        rw [ofNat_toNat_byte] at found
        exact found
    rw [List.singleton_append, unquoteBytes_other kept.2, utf8_ascii kept.1]
    rfl
  case isFalse quoted =>
    change unquoteBytes ('%' :: upperDigit (byte.toNat / 16) ::
      upperDigit (byte.toNat % 16) :: rest) = _
    rw [unquoteBytes, hexByte_upperDigit]

theorem unquote_quote {safe : Text}
    (ascii : ∀ char ∈ safe, char.toNat < 128 ∧ char ≠ '%') (text : Text) :
    unquote (quote safe text) = some text := by
  have bytes : ∀ bytes : List UInt8, unquoteBytes (bytes.flatMap (quoteByte safe)) = bytes := by
    intro bytes
    induction bytes with
    | nil => rfl
    | cons byte bytes induction =>
      rw [List.flatMap_cons, unquoteBytes_quoteByte ascii, induction]
  unfold unquote quote
  rw [bytes]
  exact decode_encode_text text

/-- `quote_plus(text)`. -/
def quotePlus (text : Text) : Text :=
  if ' ' ∈ text then
    (quote [' '] text).map fun char => if char = ' ' then '+' else char
  else quote [] text

/-- `unquote_plus(text)`. -/
def unquotePlus (text : Text) : Option Text :=
  unquote (text.map fun char => if char = '+' then ' ' else char)

def assignment (pair : Text × Text) : Text :=
  quotePlus pair.1 ++ '=' :: quotePlus pair.2

/-- `urlencode(pairs)`. -/
def urlencode (pairs : List (Text × Text)) : Text :=
  Joined.join '&' (pairs.map assignment)

theorem unquotePlus_quotePlus (text : Text) : unquotePlus (quotePlus text) = some text := by
  unfold quotePlus unquotePlus
  split
  case isTrue spaces =>
    have plus : '+' ∉ quote [' '] text :=
      not_mem_quote (by decide) (by decide) (by decide)
    have restored : ((quote [' '] text).map fun char =>
        if char = ' ' then '+' else char).map
          (fun char => if char = '+' then ' ' else char) = quote [' '] text := by
      rw [List.map_map]
      have same : ∀ char ∈ quote [' '] text, ((fun char => if char = '+' then ' ' else char) ∘
            fun char => if char = ' ' then '+' else char) char = id char := by
        intro char member
        have other : char ≠ '+' := fun sign => plus (sign ▸ member)
        by_cases space : char = ' '
        · simp [space]
        · simp [space, other]
      exact (List.map_congr_left same).trans (List.map_id _)
    rw [restored]
    exact unquote_quote (List.forall_mem_singleton.mpr (by decide)) text
  case isFalse whole =>
    have plus : '+' ∉ quote [] text :=
      not_mem_quote (by decide) (by decide) (by decide)
    have unchanged : (quote [] text).map
        (fun char => if char = '+' then ' ' else char) = quote [] text := by
      have same : ∀ char ∈ quote [] text, (if char = '+' then ' ' else char) = id char := by
        intro char member
        have other : char ≠ '+' := by
          rintro rfl
          exact plus member
        exact if_neg other
      exact (List.map_congr_left same).trans (List.map_id _)
    rw [unchanged]
    exact unquote_quote (List.forall_mem_nil _) text

theorem quotePlus_injective : Function.Injective quotePlus := by
  intro text other same
  have read := unquotePlus_quotePlus text
  rw [same, unquotePlus_quotePlus] at read
  exact (Option.some.inj read).symm

theorem not_mem_quotePlus {text : Text} {char : Char}
    (quoted : alwaysSafe char = false) (sign : char ≠ '%') (plus : char ≠ '+') :
    char ∉ quotePlus text := by
  unfold quotePlus
  split
  case isTrue spaces =>
    intro member
    obtain ⟨before, present, same⟩ := List.mem_map.mp member
    split at same
    · exact plus same.symm
    · next other =>
        subst same
        exact not_mem_quote quoted (by simpa using other) sign present
  case isFalse whole => exact not_mem_quote quoted (by simp) sign

theorem assignment_injective : Function.Injective assignment := by
  intro pair other same
  have absent : ∀ text : Text, '=' ∉ quotePlus text :=
    fun text => not_mem_quotePlus (by decide) (by decide) (by decide)
  obtain ⟨names, values⟩ :=
    PyStrings.cut_unique (absent pair.1) (absent other.1) same
  exact Prod.ext (quotePlus_injective names) (quotePlus_injective values)

theorem pieces_assignments (pairs : List (Text × Text)) :
    Joined.pieces '&' (pairs.map assignment) = pairs.map assignment := by
  have absent : ∀ text : Text, '&' ∉ quotePlus text :=
    fun text => not_mem_quotePlus (by decide) (by decide) (by decide)
  unfold Joined.pieces
  induction pairs with
  | nil => rfl
  | cons pair pairs induction =>
    have whole : '&' ∉ assignment pair := by
      intro member
      rcases List.mem_append.mp member with name | rest
      · exact absent _ name
      · rcases List.mem_cons.mp rest with sign | value
        · cases sign
        · exact absent _ value
    rw [List.map_cons, List.map_cons, List.flatten_cons,
      List.splitOn_eq_singleton whole, induction]
    rfl

def field (text : Text) : Option (Text × Text) :=
  let cut := PyStrings.partition '=' text
  (unquotePlus cut.before).bind fun name =>
    (unquotePlus cut.after).map fun value => (name, value)

/-- `parse_qsl(query)`. -/
def parseQsl (query : Text) : List (Option (Text × Text)) :=
  (query.splitOn '&').map field

theorem field_assignment (pair : Text × Text) : field (assignment pair) = some pair := by
  have absent : '=' ∉ quotePlus pair.1 :=
    not_mem_quotePlus (by decide) (by decide) (by decide)
  unfold field assignment
  rw [PyStrings.partition_cut absent]
  dsimp only
  rw [unquotePlus_quotePlus, Option.bind_some, unquotePlus_quotePlus]
  rfl

theorem parseQsl_urlencode {pairs : List (Text × Text)} (some_pair : pairs ≠ []) :
    parseQsl (urlencode pairs) = pairs.map some := by
  unfold parseQsl urlencode
  rw [Joined.splitOn_join (by simpa using some_pair), pieces_assignments,
    List.map_map]
  apply List.map_congr_left
  intro pair _member
  exact field_assignment pair

theorem urlencode_inj {pairs others : List (Text × Text)}
    (same : urlencode pairs = urlencode others) : pairs = others := by
  have some_text : ∀ (pair : Text × Text) (rest : List (Text × Text)),
      urlencode (pair :: rest) ≠ [] := by
    intro pair rest empty
    have sign : '=' ∈ urlencode (pair :: rest) := by
      have first : assignment pair <:+: urlencode (pair :: rest) :=
        PyStrings.infix_of_mem_intercalate List.mem_cons_self
      apply first.subset
      exact List.mem_append_right _ List.mem_cons_self
    rw [empty] at sign
    cases sign
  cases pairs with
  | nil =>
    cases others with
    | nil => rfl
    | cons other others => exact (some_text other others same.symm).elim
  | cons pair pairs =>
    cases others with
    | nil => exact (some_text pair pairs same).elim
    | cons other others =>
      have pieces := (Joined.join_eq_iff (List.cons_ne_nil _ _) (List.cons_ne_nil _ _)).mp same
      have same_parts : (pair :: pairs).map assignment = (other :: others).map assignment := by
        rw [← pieces_assignments, ← pieces_assignments (other :: others)]
        exact pieces
      exact List.map_injective_iff.mpr assignment_injective same_parts

end UriQuote
