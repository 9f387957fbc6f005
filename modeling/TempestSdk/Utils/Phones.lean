import TempestSdk.Utils.Documents

/-!
# Brazilian phone numbers

`parse_phone_br` with its pattern, in which the country code, the area code and
the ninth digit are optional, and `normalize_mobile_phone_br`.
-/

namespace TempestSdk.Documents

open Patterns
open Patterns.Pattern (inTurn optional)

def space : Pattern Char := .one PyDecimal.isSpace

/-- `\+?55\s?`. -/
def countryPattern : Pattern Char :=
  inTurn [optional (literal '+'), literal '5', literal '5', optional space]

/-- `\(?\d{2}\)?\s?`. -/
def areaPattern : Pattern Char :=
  inTurn [optional (literal '('), digits 2, optional (literal ')'), optional space]

/-- `[-\s]`. -/
def isGap (char : Char) : Bool := char == '-' || PyDecimal.isSpace char

/-- `9?\d{4}[-\s]?\d{4}`. -/
def linePattern : Pattern Char :=
  inTurn [optional (literal '9'), digits 4, optional (.one isGap), digits 4]

/-- `PHONE_BR_PATTERN`. -/
def phonePattern : Pattern Char :=
  .seq (optional countryPattern) (.seq (optional areaPattern) linePattern)

def national (text : Text) : Text :=
  if ['5', '5'].isPrefixOf text && [12, 13].contains text.length then
    text.drop 2
  else text

def isValidPhoneBr (value : Text) : Bool :=
  phonePattern.fullmatch value && [10, 11].contains (national (onlyDigits value)).length

structure PhoneNumberBR where
  area_code : Text
  number : Text
  is_mobile : Bool
  e164 : Text
deriving DecidableEq

def readPhone (digits : Text) : Option PhoneNumberBR :=
  let area_code := digits.take 2
  let subscriber := digits.drop 2
  let phone (is_mobile : Bool) : PhoneNumberBR :=
    ⟨area_code, subscriber, is_mobile, ['+', '5', '5'] ++ (area_code ++ subscriber)⟩
  if subscriber.length = 9 then some (phone true)
  else
    match subscriber.head? with
    | some first =>
      if ['2', '3', '4', '5'].contains first then some (phone false)
      else none
    | none => none

def parsePhoneBr (value : Text) : Option PhoneNumberBR :=
  if isValidPhoneBr value then readPhone (national (onlyDigits value))
  else none

def normalizeMobilePhoneBr (value : Text) : Except ValidationValueError Text :=
  match parsePhoneBr value with
  | some parsed =>
    if parsed.is_mobile then .ok (parsed.area_code ++ parsed.number)
    else .error ⟨"INVALID_MOBILE_PHONE_BR", "invalid BR mobile phone"⟩
  | none => .error ⟨"INVALID_MOBILE_PHONE_BR", "invalid BR mobile phone"⟩

section

variable {value word : Text}

theorem onlyDigits_append (front back : Text) :
    onlyDigits (front ++ back) = onlyDigits front ++ onlyDigits back :=
  List.filter_append ..

theorem onlyDigits_mark {test : Char → Bool}
    (other : ∀ char, test char = true → isDigit char = false)
    (found : Pattern.Matches (optional (.one test)) word) :
    onlyDigits word = [] := by
  rcases Pattern.matches_optional_iff.mp found with rfl | found
  · rfl
  · obtain ⟨char, rfl, passes⟩ := Pattern.matches_one_iff.mp found
    simp [onlyDigits, other char passes]

theorem space_not_digit (char : Char)
    (blank : PyDecimal.isSpace char = true) : isDigit char = false := by
  by_contra digit
  rw [not_space_of_digit (Bool.eq_true_of_not_eq_false digit)] at blank
  cases blank

theorem literal_not_digit {mark : Char} (other : isDigit mark = false)
    (char : Char) (same : (char == mark) = true) : isDigit char = false := by
  rwa [beq_iff_eq.mp same]

theorem gap_not_digit (char : Char) (gap : isGap char = true) : isDigit char = false := by
  rcases Bool.or_eq_true_iff.mp gap with hyphen | blank
  · exact literal_not_digit (by decide) char hyphen
  · exact space_not_digit char blank

theorem country_digits (found : Pattern.Matches countryPattern word) :
    onlyDigits word = ['5', '5'] := by
  simp only [countryPattern, inTurn, List.foldr_cons, List.foldr_nil,
    Pattern.matches_seq_iff, matches_literal_iff,
    Pattern.matches_empty_iff] at found
  obtain ⟨plus, _, rfl, onPlus, _, _, rfl, rfl, _, _, rfl, rfl, gap, _, rfl,
    onGap, rfl⟩ := found
  rw [onlyDigits_append, onlyDigits_mark (literal_not_digit (by decide)) onPlus,
    onlyDigits_append, onlyDigits_append, onlyDigits_append,
    onlyDigits_mark space_not_digit onGap]
  decide

theorem area_digits (found : Pattern.Matches areaPattern word) :
    (onlyDigits word).length = 2 := by
  simp only [areaPattern, inTurn, List.foldr_cons, List.foldr_nil,
    Pattern.matches_seq_iff, digits, Pattern.matches_times_one_iff,
    Pattern.matches_empty_iff] at found
  obtain ⟨left, _, rfl, onLeft, two, _, rfl, ⟨length, all⟩, right, _, rfl,
    onRight, gap, _, rfl, onGap, rfl⟩ := found
  rw [onlyDigits_append, onlyDigits_mark (literal_not_digit (by decide)) onLeft,
    onlyDigits_append, onlyDigits_of_digits all, onlyDigits_append,
    onlyDigits_mark (literal_not_digit (by decide)) onRight, onlyDigits_append,
    onlyDigits_mark space_not_digit onGap]
  simpa [onlyDigits] using length

theorem line_digits (found : Pattern.Matches linePattern word) :
    ∃ ninth line, onlyDigits word = ninth ++ line ∧
      (ninth = [] ∨ ninth = ['9']) ∧ line.length = 8 := by
  simp only [linePattern, inTurn, List.foldr_cons, List.foldr_nil,
    Pattern.matches_seq_iff, digits, Pattern.matches_times_one_iff,
    Pattern.matches_empty_iff] at found
  obtain ⟨ninth, _, rfl, onNinth, first, _, rfl, ⟨four, onFirst⟩, mark, _,
    rfl, onMark, last, _, rfl, ⟨again, onLast⟩, rfl⟩ := found
  have onlyNinth : ninth = [] ∨ ninth = ['9'] :=
    (Pattern.matches_optional_iff.mp onNinth).imp_right matches_literal_iff.mp
  refine ⟨ninth, first ++ last, ?_, onlyNinth, ?_⟩
  · rw [onlyDigits_append, onlyDigits_append, onlyDigits_of_digits onFirst,
      onlyDigits_append, onlyDigits_mark gap_not_digit onMark,
      onlyDigits_append, onlyDigits_of_digits onLast]
    have none : onlyDigits [] = [] := rfl
    have kept : onlyDigits ['9'] = ['9'] := by decide
    rcases onlyNinth with rfl | rfl
    · simp [none]
    · simp [none, kept]
  · rw [List.length_append, four, again]

theorem plus_not_mem (found : Pattern.Matches (.seq (optional areaPattern) linePattern) word) :
    '+' ∉ word := by
  intro member
  obtain ⟨test, known, passes⟩ := Pattern.exists_class found '+' member
  have checked : (Pattern.seq (optional areaPattern) linePattern).classes.all
      (fun test => !test '+') = true := by
    decide
  have refused := List.all_eq_true.mp checked test known
  rw [passes] at refused
  cases refused

theorem phone_digits (found : Pattern.Matches phonePattern value) :
    ∃ country area ninth line, onlyDigits value = country ++ (area ++ (ninth ++ line)) ∧
      (country = ['5', '5'] ∨ country = [] ∧ value.head? ≠ some '+') ∧
      (area = [] ∨ area.length = 2) ∧ (ninth = [] ∨ ninth = ['9']) ∧
      line.length = 8 := by
  obtain ⟨country, _, rfl, onCountry, onRest⟩ :=
    Pattern.matches_seq_iff.mp found
  obtain ⟨area, rest, rfl, onArea, onLine⟩ := Pattern.matches_seq_iff.mp onRest
  obtain ⟨ninth, line, split, optional, length⟩ := line_digits onLine
  refine ⟨onlyDigits country, onlyDigits area, ninth, line, ?_, ?_, ?_, optional, length⟩
  · rw [onlyDigits_append, onlyDigits_append, split]
  · rcases Pattern.matches_optional_iff.mp onCountry with rfl | onCountry
    · exact .inr ⟨rfl, fun head =>
        plus_not_mem onRest (List.mem_of_mem_head? head)⟩
    · exact .inl (country_digits onCountry)
  · rcases Pattern.matches_optional_iff.mp onArea with rfl | onArea
    · exact .inl rfl
    · exact .inr (area_digits onArea)

theorem national_long {area line : Text} (length : area.length = 2)
    (long : line.length = 8 ∨ line.length = 9) :
    national (['5', '5'] ++ (area ++ line)) = area ++ line := by
  have codes : (['5', '5'] ++ (area ++ line)).length = 12 ∨
      (['5', '5'] ++ (area ++ line)).length = 13 := by
    simp only [List.length_append, length]
    simp
    omega
  unfold national
  rw [if_pos]
  · rfl
  · simpa [List.isPrefixOf] using codes

theorem national_short {text : Text} (short : text.length < 12) : national text = text := by
  unfold national
  rw [if_neg]
  simp
  omega

structure National (digits : Text) : Prop where
  all : ∀ char ∈ digits, isDigit char = true
  split : ∃ area ninth line, digits = area ++ (ninth ++ line) ∧
    area.length = 2 ∧ (ninth = [] ∨ ninth = ['9']) ∧ line.length = 8

theorem National.length {digits : Text} (shape : National digits) :
    digits.length = 10 ∨ digits.length = 11 := by
  obtain ⟨area, ninth, line, rfl, two, rfl | rfl, eight⟩ := shape.split
  · exact .inl (by simp [two, eight])
  · exact .inr (by simp [two, eight])

theorem national_of_valid (valid : isValidPhoneBr value = true) :
    National (national (onlyDigits value)) ∧ (12 ≤ (onlyDigits value).length →
        onlyDigits value = ['5', '5'] ++ national (onlyDigits value)) := by
  have ⟨matched, length⟩ := Bool.and_eq_true_iff.mp valid
  obtain ⟨country, area, ninth, line, split, onCountry, two, optional, eight⟩ :=
    phone_digits ((Pattern.fullmatch_iff _ _).mp matched)
  have all : ∀ char ∈ national (onlyDigits value), isDigit char = true := by
    intro char member
    have inside : char ∈ onlyDigits value := by
      unfold national at member
      split at member
      · exact List.mem_of_mem_drop member
      · exact member
    exact (List.mem_filter.mp inside).2
  have tail : (ninth ++ line).length = 8 ∨ (ninth ++ line).length = 9 := by
    rcases optional with rfl | rfl <;> simp [eight]
  rw [split] at all length ⊢
  rcases onCountry with rfl | ⟨rfl, _⟩
  · rcases two with rfl | two
    · have short : (['5', '5'] ++ ([] ++ (ninth ++ line))).length < 12 := by
        rw [List.nil_append, List.length_append, List.length_cons, List.length_singleton]
        omega
      rw [national_short short] at all ⊢
      exact ⟨⟨all, ['5', '5'], ninth, line, rfl, rfl, optional, eight⟩,
        fun long => absurd long (not_le.mpr short)⟩
    · rw [national_long two tail] at all ⊢
      exact ⟨⟨all, area, ninth, line, rfl, two, optional, eight⟩, fun _ => rfl⟩
  · rw [List.nil_append] at all length ⊢
    have short : (area ++ (ninth ++ line)).length < 12 := by
      rw [List.length_append]
      rcases two with rfl | two
      · rw [List.length_nil]
        omega
      · omega
    rw [national_short short] at all length ⊢
    rcases two with rfl | two
    · rw [List.nil_append] at length
      simp at length tail
      omega
    · exact ⟨⟨all, area, ninth, line, rfl, two, optional, eight⟩,
        fun long => absurd long (not_le.mpr short)⟩

theorem readPhone_some {digits : Text} {phone : PhoneNumberBR}
    (read : readPhone digits = some phone) :
    phone.area_code ++ phone.number = digits ∧ phone.e164 = ['+', '5', '5'] ++ digits := by
  have parts := List.take_append_drop 2 digits
  simp only [readPhone] at read
  split at read
  · cases read
    exact ⟨parts, congrArg (['+', '5', '5'] ++ ·) parts⟩
  · split at read
    · split at read
      · cases read
        exact ⟨parts, congrArg (['+', '5', '5'] ++ ·) parts⟩
      · cases read
    · cases read

theorem digits_match {text : Text} {count : Nat} (length : text.length = count)
    (all : ∀ char ∈ text, isDigit char = true) :
    Pattern.Matches (digits count) text :=
  Pattern.matches_times_one_iff.mpr ⟨length, all⟩

theorem area_matches {area : Text} (length : area.length = 2)
    (all : ∀ char ∈ area, isDigit char = true) :
    Pattern.Matches areaPattern area := by
  have whole : Pattern.Matches areaPattern (area ++ []) :=
    .skip (.next (digits_match length all) (.skip (.skip .empty)))
  rwa [List.append_nil] at whole

theorem line_matches {ninth line : Text} (optional : ninth = [] ∨ ninth = ['9'])
    (length : line.length = 8) (all : ∀ char ∈ line, isDigit char = true) :
    Pattern.Matches linePattern (ninth ++ line) := by
  have front : Pattern.Matches (digits 4) (line.take 4) :=
    digits_match (by rw [List.length_take]; omega)
      fun char member => all char (List.mem_of_mem_take member)
  have back : Pattern.Matches (digits 4) (line.drop 4) :=
    digits_match (by rw [List.length_drop]; omega)
      fun char member => all char (List.mem_of_mem_drop member)
  have whole : Pattern.Matches (inTurn [digits 4, (Pattern.one isGap).optional,
      digits 4]) (line.take 4 ++ line.drop 4) :=
    .next front (.skip (.last back))
  rw [List.take_append_drop] at whole
  rcases optional with rfl | rfl
  · exact .skip whole
  · exact .next (.right (matches_literal_iff.mpr rfl)) whole

theorem valid_of_national {digits front : Text} (shape : National digits)
    (country : front = [] ∨ front = ['+', '5', '5']) :
    isValidPhoneBr (front ++ digits) = true ∧
      national (onlyDigits (front ++ digits)) = digits := by
  have length := shape.length
  obtain ⟨area, ninth, line, rfl, two, optional, eight⟩ := shape.split
  have all := shape.all
  rw [List.forall_mem_append, List.forall_mem_append] at all
  have matched : Pattern.Matches phonePattern (front ++ (area ++ (ninth ++ line))) := by
    refine .seq ?_ (.seq (.right (area_matches two all.1))
      (line_matches optional eight all.2.2))
    rcases country with rfl | rfl
    · exact .left .empty
    · exact .right (.next (.right (matches_literal_iff.mpr rfl))
        (.next (matches_literal_iff.mpr rfl)
          (.next (matches_literal_iff.mpr rfl) (.skip .empty))))
  have same : national (onlyDigits (front ++ (area ++ (ninth ++ line)))) =
      area ++ (ninth ++ line) := by
    rw [onlyDigits_append, onlyDigits_of_digits shape.all]
    rcases country with rfl | rfl
    · exact national_short (by
        change (area ++ (ninth ++ line)).length < 12
        omega)
    · refine national_long two ?_
      rcases optional with rfl | rfl <;> simp [eight]
  refine ⟨?_, same⟩
  rw [isValidPhoneBr, same, (Pattern.fullmatch_iff _ _).mpr matched]
  simpa using length

structure CanonicalPhone (value : Text) (phone : PhoneNumberBR) : Prop where
  country : value.head? = some '+' →
    onlyDigits value = ['5', '5'] ++ (phone.area_code ++ phone.number)
  again : parsePhoneBr phone.e164 = some phone
  mobile : ∀ answer, normalizeMobilePhoneBr value = .ok answer →
    normalizeMobilePhoneBr answer = .ok answer

/-- A parsed number is canonical unless it has a country code and no area
code. -/
theorem parsed_phone_canonical_iff {phone : PhoneNumberBR}
    (parsed : parsePhoneBr value = some phone) :
    CanonicalPhone value phone ↔
      ¬(value.head? = some '+' ∧ (onlyDigits value).length ≤ 11) := by
  have taken := parsed
  unfold parsePhoneBr at taken
  split at taken
  · rename_i valid
    have ⟨shape, long⟩ := national_of_valid valid
    have ⟨whole, e164⟩ := readPhone_some taken
    have read (front : Text) (country : front = [] ∨ front = ['+', '5', '5']) :
        parsePhoneBr (front ++ national (onlyDigits value)) = some phone := by
      have ⟨still, same⟩ := valid_of_national shape country
      rw [parsePhoneBr, if_pos still, same, taken]
    constructor
    · rintro canonical ⟨plus, short⟩
      have longer := congrArg List.length (canonical.country plus)
      rw [whole, national_short (by omega)] at longer
      simp at longer
      omega
    · intro other
      refine ⟨fun plus => ?_, ?_, fun answer answered => ?_⟩
      · rw [whole]
        exact long (by
          by_contra short
          exact other ⟨plus, by omega⟩)
      · rw [e164]
        exact read _ (.inr rfl)
      · rw [normalizeMobilePhoneBr, parsed] at answered
        simp only at answered
        split at answered
        · rename_i is_mobile
          cases answered
          have again := read [] (.inl rfl)
          rw [List.nil_append, ← whole] at again
          rw [normalizeMobilePhoneBr, again]
          exact if_pos is_mobile
        · cases answered
  · cases taken

end

theorem sample_phone : CanonicalPhone "+55 (89) 91234-5678".toList
    ⟨"89".toList, "912345678".toList, true, "+5589912345678".toList⟩ :=
  (parsed_phone_canonical_iff (by decide)).mpr (by decide)

theorem country_as_area : ¬∀ value phone, parsePhoneBr value = some phone →
      CanonicalPhone value phone := by
  intro all
  have canonical := all "+5591234-5678".toList
    ⟨"55".toList, "912345678".toList, true, "+5555912345678".toList⟩
    (by decide)
  have kept := canonical.country rfl
  revert kept
  decide

end TempestSdk.Documents
