import TempestSdk.Library.PyStrings
import TempestSdk.Utils.Documents

/-!
# PIX keys

The five kinds of keys, how `detect_pix_key_type` tells them apart and the
form `normalize_pix_key` gives them.
-/

namespace TempestSdk.Documents

open Patterns
open Patterns.Pattern (inTurn optional plus times)
open PyDecimal (isSpace strip)

inductive PixKeyType where
  | cpf
  | cnpj
  | email
  | phone
  | random
deriving DecidableEq

/-- `[^@\s]`. -/
def isMailbox (char : Char) : Bool := char != '@' && !isSpace char

/-- `[^@\s.]`. -/
def isLabel (char : Char) : Bool :=
  char != '@' && !isSpace char && char != '.'

/-- `[0-9a-fA-F]`. -/
def isHex (char : Char) : Bool :=
  char.isDigit || ('a' ≤ char && char ≤ 'f') || ('A' ≤ char && char ≤ 'F')

def pixEmailPattern : Pattern Char :=
  inTurn [plus (.one isMailbox), literal '@', plus (.one isLabel),
    plus (.seq (literal '.') (plus (.one isLabel)))]

def pixPhonePattern : Pattern Char :=
  inTurn [literal '+', literal '5', literal '5', digits 10, optional (digits 1)]

def pixRandomPattern : Pattern Char :=
  inTurn [times (.one isHex) 8, literal '-', times (.one isHex) 4,
    literal '-', times (.one isHex) 4, literal '-', times (.one isHex) 4,
    literal '-', times (.one isHex) 12]

/-- `match` of a pattern that ends in `$`, which holds before a last newline
too. -/
def matchToEnd (pattern : Pattern Char) (text : Text) : Bool :=
  pattern.fullmatch text || (text.getLast? == some '\n' && pattern.fullmatch text.dropLast)

def detectPixKeyType (value : Text) : Option PixKeyType :=
  let candidate := strip value
  if candidate.isEmpty || 77 < candidate.length then none
  else if candidate.contains '@' then
    if matchToEnd pixEmailPattern candidate then some .email else none
  else if candidate.head? == some '+' then
    if matchToEnd pixPhonePattern candidate then some .phone else none
  else if matchToEnd pixRandomPattern candidate then some .random
  else
    let text := onlyDigits candidate
    if text.length == 11 && isValidCpf text then some .cpf
    else if text.length == 14 && isValidCnpj text then some .cnpj
    else none

/-- What `str.lower` makes of a character. -/
structure LowerOf (char : Char) (part : Text) : Prop where
  ascii : char.toNat < 128 → part = [char.toLower]
  space : isSpace char = true → part = [char]
  other : 128 ≤ char.toNat → isSpace char = false →
    part ≠ [] ∧ ∀ small ∈ part, isLabel small = true

/-- `str.lower` replaces each character in its place, by one or by several;
what is in lower case stays. -/
structure Lowercase where
  lower : Text → Text
  in_place : ∀ text, ∃ parts, List.Forall₂ LowerOf text parts ∧ lower text = parts.flatten
  lower_lower : ∀ text, lower (lower text) = lower text

def normalizePixKey (lowercase : Lowercase) (value : Text) : Except ValidationValueError Text :=
  match detectPixKeyType value with
  | none => .error ⟨"INVALID_PIX_KEY", "invalid PIX key"⟩
  | some .cpf | some .cnpj => .ok (onlyDigits (strip value))
  | some .phone => .ok (strip value)
  | some .email | some .random => .ok (lowercase.lower (strip value))

section

variable {value result : Text}

theorem onlyDigits_strip (value : Text) : onlyDigits (strip value) = onlyDigits value := by
  obtain ⟨lead, trail, front, back, whole⟩ := PyStrings.exists_strip value
  have blank : ∀ {spaces : Text},
      (∀ char ∈ spaces, isSpace char = true) → onlyDigits spaces = [] := by
    intro spaces all
    refine List.filter_eq_nil_iff.mpr fun char member digit => ?_
    have visible := not_space_of_digit digit
    rw [all char member] at visible
    cases visible
  conv_rhs => rw [whole]
  unfold onlyDigits at blank ⊢
  rw [List.filter_append, List.filter_append, blank front, blank back]
  simp

theorem strip_of_visible (visible : ∀ char ∈ value, isSpace char = false) :
    strip value = value :=
  PyStrings.strip_eq_self (fun char first => visible char (List.mem_of_mem_head? first))
    (fun char last => visible char (List.mem_of_getLast? last))

theorem matchToEnd_strip (pattern : Pattern Char) (value : Text) :
    matchToEnd pattern (strip value) = true ↔ Pattern.Matches pattern (strip value) := by
  have last : (strip value).getLast? ≠ some '\n' := by
    intro newline
    have visible := PyStrings.last_strip value '\n' newline
    revert visible
    decide
  rw [← Pattern.fullmatch_iff, matchToEnd]
  simp [last]

theorem detectPixKeyType_strip (value : Text) :
    detectPixKeyType (strip value) = detectPixKeyType value := by
  rw [detectPixKeyType, PyDecimal.strip_strip]
  rfl

variable {word : Text}

theorem random_word (found : Pattern.Matches pixRandomPattern word) :
    word.length = 36 ∧ ∀ char ∈ word, isHex char = true ∨ char = '-' := by
  simp only [pixRandomPattern, inTurn, List.foldr_cons, List.foldr_nil,
    Pattern.matches_seq_iff, Pattern.matches_times_one_iff,
    matches_literal_iff, Pattern.matches_empty_iff] at found
  obtain ⟨first, _, rfl, ⟨eight, onFirst⟩, _, _, rfl, rfl, second, _, rfl,
    ⟨four, onSecond⟩, _, _, rfl, rfl, third, _, rfl, ⟨also, onThird⟩, _, _,
    rfl, rfl, fourth, _, rfl, ⟨again, onFourth⟩, _, _, rfl, rfl, fifth, _,
    rfl, ⟨twelve, onFifth⟩, rfl⟩ := found
  constructor
  · simp [eight, four, also, again, twelve]
  · intro char member
    simp only [List.mem_append, List.mem_singleton, List.append_nil] at member
    rcases member with member | member | member | member | member | member |
      member | member | member
    · exact .inl (onFirst char member)
    · exact .inr member
    · exact .inl (onSecond char member)
    · exact .inr member
    · exact .inl (onThird char member)
    · exact .inr member
    · exact .inl (onFourth char member)
    · exact .inr member
    · exact .inl (onFifth char member)

theorem not_random (short : word.length < 36) : pixRandomPattern.fullmatch word = false := by
  refine Bool.eq_false_iff.mpr fun found => ?_
  have length := (random_word ((Pattern.fullmatch_iff _ _).mp found)).1
  omega

theorem detect_of_digits (all : ∀ char ∈ value, isDigit char = true)
    (short : value.length = 11 ∨ value.length = 14) :
    detectPixKeyType value = if value.length == 11 && isValidCpf value then some .cpf
      else if value.length == 14 && isValidCnpj value then some .cnpj
      else none := by
  have stripped : strip value = value :=
    strip_of_visible fun char member => not_space_of_digit (all char member)
  have absent : '@' ∉ value := fun member => by
    have digit := all '@' member
    revert digit
    decide
  have first : value.head? ≠ some '+' := fun head => by
    have digit := all '+' (List.mem_of_mem_head? head)
    revert digit
    decide
  have random : ¬matchToEnd pixRandomPattern value = true := by
    rw [matchToEnd, not_random (by omega), not_random]
    · simp
    · rw [List.length_dropLast]
      omega
  have nonempty : value ≠ [] := by
    rintro rfl
    simp at short
  have within : ¬77 < value.length := by omega
  simp only [detectPixKeyType, stripped, onlyDigits_of_digits all]
  rw [if_neg (by simp [nonempty, within]), if_neg (by simpa using absent),
    if_neg (by simpa using first), if_neg random]

/-- A text with what `lower` makes of it, piece by piece. -/
def Lowered (value text : Text) : Prop :=
  ∃ parts, List.Forall₂ LowerOf value parts ∧ text = parts.flatten

theorem lowered_piecewise : Pattern.Piecewise Lowered where
  nil := by
    rintro _ ⟨parts, images, rfl⟩
    cases images
    rfl
  append := by
    rintro front back _ ⟨parts, images, rfl⟩
    have left := List.forall₂_take front.length images
    have right := List.forall₂_drop front.length images
    rw [List.take_left] at left
    rw [List.drop_left] at right
    refine ⟨_, _, ?_, ⟨_, left, rfl⟩, ⟨_, right, rfl⟩⟩
    rw [← List.flatten_append, List.take_append_drop]

theorem Lowered.all {text : Text} (lowered : Lowered value text) {before later : Char → Prop}
    (piece : ∀ char part, LowerOf char part → before char → ∀ small ∈ part, later small)
    (all : ∀ char ∈ value, before char) : ∀ small ∈ text, later small := by
  obtain ⟨parts, images, rfl⟩ := lowered
  induction images with
  | nil => simp
  | cons image _ rest =>
    rw [List.forall_mem_cons] at all
    rw [List.flatten_cons, List.forall_mem_append]
    exact ⟨piece _ _ image all.1, rest all.2⟩

def isSmallHex (char : Char) : Bool :=
  char.isDigit || ('a' ≤ char && char ≤ 'f')

variable {char : Char}

theorem isSmallHex_iff : isSmallHex char = true ↔ (48 ≤ char.toNat ∧ char.toNat ≤ 57) ∨
      (97 ≤ char.toNat ∧ char.toNat ≤ 102) := by
  simp [isSmallHex, Char.isDigit, Char.le_def, UInt32.le_iff_toNat_le]

theorem isHex_iff : isHex char = true ↔
    isSmallHex char = true ∨ (65 ≤ char.toNat ∧ char.toNat ≤ 70) := by
  simp [isHex, isSmallHex, Char.le_def, UInt32.le_iff_toNat_le]

structure SmallLetter (char : Char) : Prop where
  label : isLabel char.toLower = true
  hex : isHex char = true → isSmallHex char.toLower = true
  again : char.toLower.toLower = char.toLower

instance (char : Char) : Decidable (SmallLetter char) :=
  decidable_of_iff (isLabel char.toLower = true ∧
      (isHex char = true → isSmallHex char.toLower = true) ∧
      char.toLower.toLower = char.toLower)
    ⟨fun known => ⟨known.1, known.2.1, known.2.2⟩,
      fun known => ⟨known.label, known.hex, known.again⟩⟩

theorem toLower_of_upper (first : 65 ≤ char.toNat) (last : char.toNat ≤ 90) :
    SmallLetter char := by
  have checked : (List.range 26).all (fun step =>
      decide (SmallLetter (Char.ofNat (65 + step)))) = true := by
    decide
  have here := List.all_eq_true.mp checked (char.toNat - 65) (List.mem_range.mpr (by omega))
  rw [Nat.add_sub_cancel' first, Char.ofNat_toNat] at here
  exact of_decide_eq_true here

theorem toLower_of_other (other : ¬(65 ≤ char.toNat ∧ char.toNat ≤ 90)) : char.toLower = char :=
  dif_neg other

theorem toLower_toLower (char : Char) : char.toLower.toLower = char.toLower := by
  by_cases upper : 65 ≤ char.toNat ∧ char.toNat ≤ 90
  · exact (toLower_of_upper upper.1 upper.2).again
  · rw [toLower_of_other upper, toLower_of_other upper]

theorem LowerOf.label {part : Text} (image : LowerOf char part) (label : isLabel char = true) :
    part ≠ [] ∧ ∀ small ∈ part, isLabel small = true := by
  by_cases ascii : char.toNat < 128
  · rw [image.ascii ascii]
    refine ⟨List.cons_ne_nil _ _, List.forall_mem_singleton.mpr ?_⟩
    by_cases upper : 65 ≤ char.toNat ∧ char.toNat ≤ 90
    · exact (toLower_of_upper upper.1 upper.2).label
    · rw [toLower_of_other upper]
      exact label
  · have visible : isSpace char = false := by
      simp only [isLabel, Bool.and_eq_true] at label
      simpa using label.1.2
    exact image.other (not_lt.mp ascii) visible

theorem LowerOf.mailbox {part : Text} (image : LowerOf char part)
    (mailbox : isMailbox char = true) :
    part ≠ [] ∧ ∀ small ∈ part, isMailbox small = true := by
  by_cases dot : char = '.'
  · subst dot
    rw [image.ascii (by decide)]
    exact ⟨List.cons_ne_nil _ _, List.forall_mem_singleton.mpr (by decide)⟩
  · have label : isLabel char = true := by
      simpa [isLabel, isMailbox, dot] using mailbox
    have ⟨present, labels⟩ := image.label label
    refine ⟨present, fun small member => ?_⟩
    exact (Bool.and_eq_true_iff.mp (labels small member)).1

theorem LowerOf.hex {part : Text} (image : LowerOf char part) (hex : isHex char = true) :
    part = [char.toLower] ∧ isSmallHex char.toLower = true := by
  have codes := isHex_iff.mp hex
  rw [isSmallHex_iff] at codes
  refine ⟨image.ascii (by omega), ?_⟩
  by_cases upper : 65 ≤ char.toNat ∧ char.toNat ≤ 90
  · exact (toLower_of_upper upper.1 upper.2).hex hex
  · rw [toLower_of_other upper, isSmallHex_iff]
    omega

theorem carries_literal (ascii : char.toNat < 128)
    (small : char.toLower = char) : Pattern.Carries Lowered (literal char) := by
  rintro word _ found ⟨parts, images, rfl⟩
  rw [matches_literal_iff] at found ⊢
  subst found
  cases images with
  | cons image rest =>
    cases rest
    rw [image.ascii ascii, small]
    rfl

theorem carries_plus {test : Char → Bool}
    (piece : ∀ char part, LowerOf char part → test char = true →
      part ≠ [] ∧ ∀ small ∈ part, test small = true) :
    Pattern.Carries Lowered (plus (.one test)) := by
  intro word other found lowered
  rw [Pattern.matches_plus_one_iff] at found ⊢
  refine ⟨?_, lowered.all (fun char part image passes =>
    (piece char part image passes).2) found.2⟩
  obtain ⟨parts, images, rfl⟩ := lowered
  cases images with
  | nil => exact found.1
  | cons image rest =>
    have present := (piece _ _ image (found.2 _ (.head _))).1
    simp [present]

theorem carries_email : Pattern.Carries Lowered pixEmailPattern := by
  have label : Pattern.Carries Lowered (plus (.one isLabel)) :=
    carries_plus fun _ _ image passes => image.label passes
  refine .inTurn lowered_piecewise ?_
  simp only [List.forall_mem_cons]
  refine ⟨carries_plus fun _ _ image passes => image.mailbox passes,
    carries_literal (by decide) (by decide), label,
    .plus lowered_piecewise (.seq lowered_piecewise
      (carries_literal (by decide) (by decide)) label), by simp⟩

theorem carries_random : Pattern.Carries Lowered pixRandomPattern := by
  have hyphen : Pattern.Carries Lowered (literal '-') :=
    carries_literal (by decide) (by decide)
  have hex (count : Nat) : Pattern.Carries Lowered (times (.one isHex) count) := by
    refine .times lowered_piecewise ?_ count
    rintro word _ found ⟨parts, images, rfl⟩
    obtain ⟨char, rfl, passes⟩ := Pattern.matches_one_iff.mp found
    cases images with
    | cons image rest =>
      cases rest
      have ⟨whole, small⟩ := image.hex passes
      rw [whole]
      exact .one (isHex_iff.mpr (.inl small))
  refine .inTurn lowered_piecewise ?_
  simp only [List.forall_mem_cons]
  exact ⟨hex 8, hyphen, hex 4, hyphen, hex 4, hyphen, hex 4, hyphen, hex 12, by simp⟩

theorem email_word (found : Pattern.Matches pixEmailPattern word) :
    '@' ∈ word ∧ ∀ char ∈ word, isSpace char = false := by
  constructor
  · rw [pixEmailPattern, inTurn, List.foldr_cons, List.foldr_cons,
      Pattern.matches_seq_iff] at found
    obtain ⟨_, _, rfl, _, rest⟩ := found
    obtain ⟨_, _, rfl, sign, _⟩ := Pattern.matches_seq_iff.mp rest
    rw [matches_literal_iff.mp sign]
    simp
  · intro char member
    obtain ⟨test, known, passes⟩ := Pattern.exists_class found char member
    have classes : test = isMailbox ∨ test = isLabel ∨ test = (fun other => other == '@') ∨
        test = (fun other => other == '.') := by
      simp [pixEmailPattern, inTurn, plus, Pattern.classes, literal] at known
      tauto
    rcases classes with rfl | rfl | rfl | rfl
    · simpa using (Bool.and_eq_true_iff.mp passes).2
    · simp only [isLabel, Bool.and_eq_true] at passes
      simpa using passes.1.2
    · rw [beq_iff_eq.mp passes]
      decide
    · rw [beq_iff_eq.mp passes]
      decide

def Detected (value : Text) : PixKeyType → Prop
  | .cpf => isValidCpf (onlyDigits value) = true
  | .cnpj => isValidCnpj (onlyDigits value) = true
  | .email => Pattern.Matches pixEmailPattern (strip value)
  | .phone => Pattern.Matches pixPhonePattern (strip value)
  | .random => Pattern.Matches pixRandomPattern (strip value)

theorem detected {kind : PixKeyType}
    (found : detectPixKeyType value = some kind) : Detected value kind := by
  simp only [detectPixKeyType, onlyDigits_strip] at found
  split at found
  · cases found
  · split at found
    · split at found
      · rename_i email
        cases found
        exact (matchToEnd_strip _ _).mp email
      · cases found
    · split at found
      · split at found
        · rename_i phone
          cases found
          exact (matchToEnd_strip _ _).mp phone
        · cases found
      · split at found
        · rename_i random
          cases found
          exact (matchToEnd_strip _ _).mp random
        · split at found
          · rename_i cpf
            cases found
            exact (Bool.and_eq_true_iff.mp cpf).2
          · split at found
            · rename_i cnpj
              cases found
              exact (Bool.and_eq_true_iff.mp cnpj).2
            · cases found

theorem detect_email (found : Pattern.Matches pixEmailPattern value) :
    detectPixKeyType value = if 77 < value.length then none else some .email := by
  have ⟨sign, visible⟩ := email_word found
  have stripped := strip_of_visible visible
  have matched : matchToEnd pixEmailPattern value = true := by
    rw [← stripped, matchToEnd_strip, stripped]
    exact found
  have nonempty : value ≠ [] := List.ne_nil_of_mem sign
  simp only [detectPixKeyType, stripped]
  by_cases long : 77 < value.length
  · simp [long]
  · simp [long, nonempty, sign, matched]

theorem random_visible (found : Pattern.Matches pixRandomPattern word) :
    ∀ char ∈ word, isSpace char = false := by
  intro char member
  rcases (random_word found).2 char member with hex | rfl
  · have codes := isHex_iff.mp hex
    rw [isSmallHex_iff] at codes
    unfold isSpace
    simp
    omega
  · decide

theorem detect_random (found : Pattern.Matches pixRandomPattern value) :
    detectPixKeyType value = some .random := by
  have ⟨length, letters⟩ := random_word found
  have absent (char : Char) (not_hex : isHex char = false)
      (other : char ≠ '-') : char ∉ value := fun member => by
    rcases letters char member with hex | hyphen
    · rw [not_hex] at hex
      cases hex
    · exact other hyphen
  have stripped := strip_of_visible (random_visible found)
  have matched : matchToEnd pixRandomPattern value = true := by
    rw [← stripped, matchToEnd_strip, stripped]
    exact found
  have nonempty : value ≠ [] := by
    rintro rfl
    cases length
  have first : value.head? ≠ some '+' := fun head =>
    absent '+' (by decide) (by decide) (List.mem_of_mem_head? head)
  simp [detectPixKeyType, stripped, length, nonempty, first, matched,
    absent '@' (by decide) (by decide)]

theorem phone_word : Pattern.Matches pixPhonePattern word ↔ ∃ number,
      word = '+' :: '5' :: '5' :: number ∧ (number.length = 10 ∨ number.length = 11) ∧
        ∀ char ∈ number, isDigit char = true := by
  simp only [pixPhonePattern, inTurn, List.foldr_cons, List.foldr_nil,
    Pattern.matches_seq_iff, Pattern.matches_optional_iff, digits,
    Pattern.matches_times_one_iff, matches_literal_iff,
    Pattern.matches_empty_iff]
  constructor
  · rintro ⟨_, _, rfl, rfl, _, _, rfl, rfl, _, _, rfl, rfl, ten, _, rfl,
      ⟨length, all⟩, one, _, rfl, more, rfl⟩
    refine ⟨ten ++ one, by simp, ?_⟩
    rcases more with rfl | ⟨single, digit⟩
    · simp only [List.append_nil]
      exact ⟨.inl length, all⟩
    · rw [List.length_append, List.forall_mem_append]
      exact ⟨.inr (by omega), all, digit⟩
  · rintro ⟨number, rfl, length, all⟩
    refine ⟨['+'], _, rfl, rfl, ['5'], _, rfl, rfl, ['5'], number, rfl, rfl,
      number.take 10, number.drop 10, (List.take_append_drop 10 number).symm,
      ⟨by rw [List.length_take]; omega, fun char member =>
        all char (List.mem_of_mem_take member)⟩,
      number.drop 10, [], (List.append_nil _).symm, ?_, rfl⟩
    rcases length with ten | eleven
    · exact .inl (List.drop_eq_nil_iff.mpr ten.le)
    · exact .inr ⟨by rw [List.length_drop, eleven], fun char member =>
        all char (List.mem_of_mem_drop member)⟩

def KeyAlphabet (lowercase : Lowercase) : PixKeyType → Text → Prop
  | .cpf, key | .cnpj, key => ∀ char ∈ key, char.isDigit = true
  | .phone, key => ∃ number, key = '+' :: '5' :: '5' :: number ∧
      ∀ char ∈ number, char.isDigit = true
  | .random, key => ∀ char ∈ key, isSmallHex char = true ∨ char = '-'
  | .email, key => strip key = key ∧ lowercase.lower key = key

structure CanonicalKey (lowercase : Lowercase) (kind : PixKeyType)
    (value result : Text) : Prop where
  alphabet : KeyAlphabet lowercase kind result
  fixed : normalizePixKey lowercase result = .ok result
  same_kind : detectPixKeyType result = some kind
  unmasked : kind = .cpf ∨ kind = .cnpj → ∀ other answer, detectPixKeyType other = some kind →
    normalizePixKey lowercase other = .ok answer →
    unmask other = unmask value → answer = result

def HasCanonical (lowercase : Lowercase) (value : Text) : PixKeyType → Prop
  | .cpf | .cnpj | .phone => AsciiDigits value
  | .email => (lowercase.lower (strip value)).length ≤ 77
  | .random => True

variable {lowercase : Lowercase}

theorem document_key_iff {kind : PixKeyType} (document : kind = .cpf ∨ kind = .cnpj)
    (found : detectPixKeyType value = some kind)
    (kept : detectPixKeyType (onlyDigits value) = some kind) :
    CanonicalKey lowercase kind value (onlyDigits value) ↔ AsciiDigits value := by
  have normalized (other : Text) (same : detectPixKeyType other = some kind) :
      normalizePixKey lowercase other = .ok (onlyDigits other) := by
    rcases document with rfl | rfl <;>
      rw [normalizePixKey, same, onlyDigits_strip]
  constructor
  · intro canonical
    have alphabet := canonical.alphabet
    rcases document with rfl | rfl <;> exact onlyDigits_ascii_iff.mp alphabet
  · intro ascii
    refine ⟨?_, ?_, kept, ?_⟩
    · rcases document with rfl | rfl <;> exact onlyDigits_ascii_iff.mpr ascii
    · rw [normalized _ kept, onlyDigits_onlyDigits]
    · intro _ other answer same answered unmasked
      rw [normalized other same] at answered
      rw [← Except.ok.inj answered, ← onlyDigits_unmask other, unmasked, onlyDigits_unmask]

theorem phone_key_iff (found : detectPixKeyType value = some .phone) :
    CanonicalKey lowercase .phone value (strip value) ↔ AsciiDigits value := by
  obtain ⟨number, whole, _, all⟩ := phone_word.mp (detected found)
  have digits : onlyDigits value = '5' :: '5' :: number := by
    rw [← onlyDigits_strip, whole]
    change '5' :: '5' :: onlyDigits number = _
    rw [onlyDigits_of_digits all]
  have ascii : AsciiDigits value ↔ ∀ char ∈ number, char.isDigit = true := by
    rw [← onlyDigits_ascii_iff, digits, List.forall_mem_cons, List.forall_mem_cons]
    exact ⟨fun known => known.2.2, fun known => ⟨rfl, rfl, known⟩⟩
  have kept : detectPixKeyType (strip value) = some .phone := by
    rw [detectPixKeyType_strip, found]
  rw [ascii]
  constructor
  · intro canonical
    obtain ⟨other, same, known⟩ := canonical.alphabet
    rw [whole] at same
    simp only [List.cons.injEq, true_and] at same
    rwa [same]
  · intro known
    refine ⟨⟨number, whole, known⟩, ?_, kept, by rintro (_ | _) <;> contradiction⟩
    rw [normalizePixKey, kept, PyDecimal.strip_strip]

theorem email_key_iff (found : detectPixKeyType value = some .email) :
    CanonicalKey lowercase .email value (lowercase.lower (strip value)) ↔
      (lowercase.lower (strip value)).length ≤ 77 := by
  have small := carries_email _ _ (detected found) (lowercase.in_place (strip value))
  have stripped := strip_of_visible (email_word small).2
  have kept := detect_email small
  constructor
  · intro canonical
    have same := canonical.same_kind
    rw [kept] at same
    by_contra long
    rw [if_pos (not_le.mp long)] at same
    cases same
  · intro short
    rw [if_neg (not_lt.mpr short)] at kept
    refine ⟨⟨stripped, lowercase.lower_lower _⟩, ?_, kept, by rintro (_ | _) <;> contradiction⟩
    rw [normalizePixKey, kept, stripped, lowercase.lower_lower]

theorem random_key (found : detectPixKeyType value = some .random) :
    CanonicalKey lowercase .random value (lowercase.lower (strip value)) := by
  have known : Pattern.Matches pixRandomPattern (strip value) := detected found
  have lowered := lowercase.in_place (strip value)
  have small := carries_random _ _ known lowered
  have kept := detect_random small
  have stripped := strip_of_visible (random_visible small)
  refine ⟨?_, ?_, kept, by rintro (_ | _) <;> contradiction⟩
  · refine Lowered.all lowered ?_ (random_word known).2
    rintro char part image (hex | rfl)
    · have ⟨whole, smallHex⟩ := image.hex hex
      rw [whole]
      exact List.forall_mem_singleton.mpr (.inl smallHex)
    · rw [image.ascii (by decide)]
      exact List.forall_mem_singleton.mpr (.inr rfl)
  · rw [normalizePixKey, kept, stripped, lowercase.lower_lower]

theorem pix_key_canonical_iff {kind : PixKeyType} (found : detectPixKeyType value = some kind)
    (accepted : normalizePixKey lowercase value = .ok result) :
    CanonicalKey lowercase kind value result ↔ HasCanonical lowercase value kind := by
  have known := detected found
  have all : ∀ char ∈ onlyDigits value, isDigit char = true :=
    fun char member => (List.mem_filter.mp member).2
  rw [normalizePixKey, found] at accepted
  cases kind with
  | cpf =>
    cases accepted
    rw [onlyDigits_strip]
    have length := length_of_cpf known
    rw [onlyDigits_onlyDigits] at length
    refine document_key_iff (.inl rfl) found ?_
    rw [detect_of_digits all (.inl length)]
    simp [length, (show isValidCpf (onlyDigits value) = true from known)]
  | cnpj =>
    cases accepted
    rw [onlyDigits_strip]
    have length := length_of_cnpj known
    rw [onlyDigits_onlyDigits] at length
    refine document_key_iff (.inr rfl) found ?_
    rw [detect_of_digits all (.inr length)]
    simp [length, (show isValidCnpj (onlyDigits value) = true from known)]
  | email =>
    cases accepted
    exact email_key_iff found
  | phone =>
    cases accepted
    exact phone_key_iff found
  | random =>
    cases accepted
    exact iff_of_true (random_key found) trivial

/-- Each normaliser reaches a canonical form just when the decimal digits are
those of ASCII, or when the e-mail address is short in lower case too. -/
theorem normalisers_canonical_iff (lowercase : Lowercase) (value result : Text) :
    (normalizeCpf value = .ok result →
      (Canonical normalizeCpf value result ↔ AsciiDigits value)) ∧
    (normalizeCnpj value = .ok result →
      (Canonical normalizeCnpj value result ↔ AsciiDigits value)) ∧
    (normalizeCpfCnpj value = .ok result →
      (Canonical normalizeCpfCnpj value result ↔ AsciiDigits value)) ∧
    ∀ kind, detectPixKeyType value = some kind → normalizePixKey lowercase value = .ok result →
      (CanonicalKey lowercase kind value result ↔ HasCanonical lowercase value kind) :=
  ⟨normalizeBy_canonical_iff cpf_keeps, normalizeBy_canonical_iff cnpj_keeps,
    normalizeBy_canonical_iff cpfCnpj_keeps,
    fun _ found accepted => pix_key_canonical_iff found accepted⟩

end

theorem lowerOf_ascii (char : Char) : LowerOf char [char.toLower] where
  ascii _ := rfl
  space blank := by
    rw [toLower_of_other]
    unfold isSpace at blank
    simp at blank
    omega
  other beyond visible := by
    rw [toLower_of_other (by omega)]
    refine ⟨List.cons_ne_nil _ _, List.forall_mem_singleton.mpr ?_⟩
    have sign : char ≠ '@' := by
      rintro rfl
      revert beyond
      decide
    have dot : char ≠ '.' := by
      rintro rfl
      revert beyond
      decide
    simp [isLabel, sign, dot, visible]

def asciiLowercase : Lowercase where
  lower text := text.map Char.toLower
  in_place text := by
    refine ⟨text.map fun char => [char.toLower], ?_, ?_⟩
    · rw [List.forall₂_map_right_iff, List.forall₂_same]
      exact fun char _ => lowerOf_ascii char
    · induction text with
      | nil => rfl
      | cons char text rest => exact congrArg (char.toLower :: ·) rest
  lower_lower text := by
    rw [List.map_map]
    exact List.map_congr_left fun char _ => toLower_toLower char

theorem sample_canonical :
    Canonical normalizeCpf "529.982.247-25".toList "52998224725".toList :=
  ((normalisers_canonical_iff asciiLowercase _ _).1 (by decide)).mpr
    (onlyDigits_ascii_iff.mp (List.all_eq_true.mp (by decide)))

theorem arabic_digit_kept : ¬∀ value result, normalizeCpf value = .ok result →
      Canonical normalizeCpf value result := by
  intro all
  have canonical := all "\u06652998224725".toList "\u06652998224725".toList (by decide)
  have ascii := canonical.alphabet '\u0665' (by decide)
  revert ascii
  decide

end TempestSdk.Documents
