import TempestSdk.Library.Patterns
import TempestSdk.Library.PyDecimal

/-!
# Brazilian documents

CPF and CNPJ numbers with and without their masks: the patterns, the check
digits and the `normalize_*` helpers.
-/

namespace TempestSdk.Documents

open Patterns
open Patterns.Pattern (inTurn optional times)

abbrev Text := List Char

/-- The value of a character of the class `\d`, which is a decimal digit of any
script. -/
def digitOf (char : Char) : Option Nat :=
  if char.isDigit then some (char.toNat - 48) else PyDecimal.toDecimal char

def isDigit (char : Char) : Bool := (digitOf char).isSome

def literal (char : Char) : Pattern Char := .one fun other => other == char

def digits (count : Nat) : Pattern Char := times (.one isDigit) count

def onlyDigits (value : Text) : Text := value.filter isDigit

def cpfPattern : Pattern Char :=
  inTurn [digits 3, optional (literal '.'), digits 3, optional (literal '.'),
    digits 3, optional (literal '-'), digits 2]

def cnpjPattern : Pattern Char :=
  inTurn [digits 2, optional (literal '.'), digits 3, optional (literal '.'),
    digits 3, optional (literal '/'), digits 4, optional (literal '-'),
    digits 2]

/-- `int(digits[index])`. -/
def digitAt (text : Text) (index : Nat) : Nat :=
  (text[index]?.bind digitOf).getD 0

def weighted (text : Text) (weights : List Nat) : Nat :=
  (weights.zipIdx.map fun (weight, index) => digitAt text index * weight).sum

def cpfCheckDigits (text : Text) : Bool :=
  if text.length != 11 || text.eraseDups.length == 1 then false
  else [9, 10].all fun size =>
    let check := weighted text ((List.range size).map (size + 1 - ·)) * 10 % 11
    (if check == 10 then 0 else check) == digitAt text size

def cnpjCheckDigits (text : Text) : Bool :=
  if text.length != 14 || text.eraseDups.length == 1 then false
  else
    let weightsFirst := [5, 4, 3, 2, 9, 8, 7, 6, 5, 4, 3, 2]
    [(12, weightsFirst), (13, 6 :: weightsFirst)].all fun (size, weights) =>
      let rest := weighted text weights % 11
      (if rest < 2 then 0 else 11 - rest) == digitAt text size

def isValidCpf (value : Text) : Bool :=
  cpfPattern.fullmatch value && cpfCheckDigits (onlyDigits value)

def isValidCnpj (value : Text) : Bool :=
  cnpjPattern.fullmatch value && cnpjCheckDigits (onlyDigits value)

def isValidCpfCnpj (value : Text) : Bool :=
  let text := onlyDigits value
  if text.length == 11 then isValidCpf value
  else if text.length == 14 then isValidCnpj value
  else false

structure ValidationValueError where
  code : String
  message : String
deriving DecidableEq

def normalizeBy (isValid : Text → Bool) (error : ValidationValueError)
    (value : Text) : Except ValidationValueError Text :=
  if isValid value then .ok (onlyDigits value) else .error error

def normalizeCpf : Text → Except ValidationValueError Text :=
  normalizeBy isValidCpf ⟨"INVALID_CPF", "invalid CPF"⟩

def normalizeCnpj : Text → Except ValidationValueError Text :=
  normalizeBy isValidCnpj ⟨"INVALID_CNPJ", "invalid CNPJ"⟩

def normalizeCpfCnpj : Text → Except ValidationValueError Text :=
  normalizeBy isValidCpfCnpj ⟨"INVALID_CPF_CNPJ", "invalid CPF/CNPJ"⟩

section

variable {value result : Text}

theorem onlyDigits_onlyDigits (value : Text) :
    onlyDigits (onlyDigits value) = onlyDigits value := by
  simp [onlyDigits, List.filter_filter]

theorem onlyDigits_of_digits (all : ∀ char ∈ value, isDigit char = true) :
    onlyDigits value = value :=
  List.filter_eq_self.mpr all

theorem zeros_apart : ∀ first ∈ PyDecimal.zeros,
    1632 ≤ first ∧ (first + 9 < 5760 ∨ 5760 < first) ∧ (first + 9 < 8192 ∨ 8287 < first) ∧
      (first + 9 < 12288 ∨ 12288 < first) := by
  have checked : PyDecimal.zeros.all (fun first =>
      decide (1632 ≤ first ∧ (first + 9 < 5760 ∨ 5760 < first) ∧
        (first + 9 < 8192 ∨ 8287 < first) ∧
        (first + 9 < 12288 ∨ 12288 < first))) = true := by
    decide
  simpa using List.all_eq_true.mp checked

theorem not_space_of_digit {char : Char} (digit : isDigit char = true) :
    PyDecimal.isSpace char = false := by
  have code : (48 ≤ char.toNat ∧ char.toNat ≤ 57) ∨
      ∃ first ∈ PyDecimal.zeros, first ≤ char.toNat ∧ char.toNat < first + 10 := by
    unfold isDigit digitOf at digit
    by_cases ascii : char.isDigit = true
    · have bounds : 48 ≤ char.val ∧ char.val ≤ 57 := by
        simpa [Char.isDigit] using ascii
      exact .inl bounds
    · rw [if_neg ascii, PyDecimal.toDecimal, Option.isSome_map, List.find?_isSome] at digit
      obtain ⟨first, member, bounds⟩ := digit
      exact .inr ⟨first, member, by simpa using bounds⟩
  unfold PyDecimal.isSpace
  rcases code with ascii | ⟨first, member, above, below⟩
  · simp
    omega
  · have apart := zeros_apart first member
    simp
    omega

theorem matches_literal_iff {char : Char} {word : Text} :
    Pattern.Matches (literal char) word ↔ word = [char] := by
  rw [literal, Pattern.matches_one_iff]
  constructor
  · rintro ⟨other, rfl, same⟩
    simpa using same
  · rintro rfl
    exact ⟨char, rfl, by simp⟩

/-- A text with what `only_digits` makes of it. -/
def Unmasked (value text : Text) : Prop := text = onlyDigits value

theorem unmasked_piecewise : Pattern.Piecewise Unmasked where
  nil := by
    rintro _ rfl
    rfl
  append := by
    rintro front back _ rfl
    exact ⟨_, _, List.filter_append .., rfl, rfl⟩

theorem carries_digits (count : Nat) : Pattern.Carries Unmasked (digits count) := by
  rintro word _ found rfl
  have all := (Pattern.matches_times_one_iff.mp found).2
  rwa [onlyDigits_of_digits all]

theorem carries_mask {mask : Char} (other : isDigit mask = false) :
    Pattern.Carries Unmasked (optional (literal mask)) := by
  rintro word _ found rfl
  rcases Pattern.matches_optional_iff.mp found with rfl | found
  · exact .left .empty
  · obtain ⟨char, rfl, same⟩ := Pattern.matches_one_iff.mp found
    obtain rfl : char = mask := by simpa using same
    have none : onlyDigits [char] = [] := by simp [onlyDigits, other]
    rw [none]
    exact .left .empty

theorem carries_cpf : Pattern.Carries Unmasked cpfPattern := by
  refine .inTurn unmasked_piecewise ?_
  simp only [List.forall_mem_cons]
  exact ⟨carries_digits 3, carries_mask (by decide), carries_digits 3,
    carries_mask (by decide), carries_digits 3, carries_mask (by decide),
    carries_digits 2, by simp⟩

theorem carries_cnpj : Pattern.Carries Unmasked cnpjPattern := by
  refine .inTurn unmasked_piecewise ?_
  simp only [List.forall_mem_cons]
  exact ⟨carries_digits 2, carries_mask (by decide), carries_digits 3,
    carries_mask (by decide), carries_digits 3, carries_mask (by decide),
    carries_digits 4, carries_mask (by decide), carries_digits 2, by simp⟩

theorem isValidCpf_onlyDigits (valid : isValidCpf value = true) :
    isValidCpf (onlyDigits value) = true := by
  simp only [isValidCpf, Bool.and_eq_true, Pattern.fullmatch_iff] at valid ⊢
  rw [onlyDigits_onlyDigits]
  exact ⟨carries_cpf _ _ valid.1 rfl, valid.2⟩

theorem isValidCnpj_onlyDigits (valid : isValidCnpj value = true) :
    isValidCnpj (onlyDigits value) = true := by
  simp only [isValidCnpj, Bool.and_eq_true, Pattern.fullmatch_iff] at valid ⊢
  rw [onlyDigits_onlyDigits]
  exact ⟨carries_cnpj _ _ valid.1 rfl, valid.2⟩

theorem length_of_cpf (valid : isValidCpf value = true) : (onlyDigits value).length = 11 := by
  by_contra other
  simp [isValidCpf, cpfCheckDigits, other] at valid

theorem length_of_cnpj (valid : isValidCnpj value = true) : (onlyDigits value).length = 14 := by
  by_contra other
  simp [isValidCnpj, cnpjCheckDigits, other] at valid

def documentType (value : Text) : Bool × Bool :=
  (isValidCpf value, isValidCnpj value)

theorem documentType_of_cpf (valid : isValidCpf value = true) :
    documentType value = (true, false) := by
  have length := length_of_cpf valid
  have other : isValidCnpj value = false := by
    by_contra both
    have := length_of_cnpj (Bool.eq_true_of_not_eq_false both)
    omega
  rw [documentType, valid, other]

theorem documentType_of_cnpj (valid : isValidCnpj value = true) :
    documentType value = (false, true) := by
  have length := length_of_cnpj valid
  have other : isValidCpf value = false := by
    by_contra both
    have := length_of_cpf (Bool.eq_true_of_not_eq_false both)
    omega
  rw [documentType, valid, other]

theorem isValidCpfCnpj_iff : isValidCpfCnpj value = true ↔
      isValidCpf value = true ∨ isValidCnpj value = true := by
  constructor
  · intro valid
    simp only [isValidCpfCnpj] at valid
    split at valid
    · exact .inl valid
    · split at valid
      · exact .inr valid
      · cases valid
  · rintro (valid | valid)
    · simp [isValidCpfCnpj, length_of_cpf valid, valid]
    · simp [isValidCpfCnpj, length_of_cnpj valid, valid]

def unmask (value : Text) : Text :=
  value.filter fun char => !(['.', '-', '/'].contains char)

theorem onlyDigits_unmask (value : Text) : onlyDigits (unmask value) = onlyDigits value := by
  unfold onlyDigits unmask
  rw [List.filter_filter]
  refine List.filter_congr fun char _ => ?_
  by_cases mask : char = '.' ∨ char = '-' ∨ char = '/'
  · rcases mask with rfl | rfl | rfl <;> decide
  · simp [mask]

def AsciiDigits (value : Text) : Prop :=
  ∀ char ∈ value, isDigit char = true → char.isDigit = true

structure Canonical (normalize : Text → Except ValidationValueError Text)
    (value result : Text) : Prop where
  alphabet : ∀ char ∈ result, char.isDigit = true
  fixed : normalize result = .ok result
  kind : documentType result = documentType value
  unmasked : ∀ other answer, normalize other = .ok answer →
    unmask other = unmask value → answer = result

theorem normalizeBy_ok {isValid : Text → Bool} {error : ValidationValueError} :
    normalizeBy isValid error value = .ok result ↔
      isValid value = true ∧ result = onlyDigits value := by
  by_cases valid : isValid value = true
  · simp [normalizeBy, valid, eq_comm]
  · simp [normalizeBy, valid]

theorem onlyDigits_ascii_iff :
    (∀ char ∈ onlyDigits value, char.isDigit = true) ↔ AsciiDigits value := by
  simp [onlyDigits, AsciiDigits]

theorem normalizeBy_canonical_iff {isValid : Text → Bool} {error : ValidationValueError}
    (keeps : ∀ value, isValid value = true → isValid (onlyDigits value) = true ∧
        documentType (onlyDigits value) = documentType value)
    (accepted : normalizeBy isValid error value = .ok result) :
    Canonical (normalizeBy isValid error) value result ↔ AsciiDigits value := by
  obtain ⟨valid, rfl⟩ := normalizeBy_ok.mp accepted
  constructor
  · intro canonical
    exact onlyDigits_ascii_iff.mp canonical.alphabet
  · intro ascii
    refine ⟨onlyDigits_ascii_iff.mpr ascii, normalizeBy_ok.mpr
      ⟨(keeps value valid).1, (onlyDigits_onlyDigits value).symm⟩,
      (keeps value valid).2, ?_⟩
    intro other answer answered same
    obtain ⟨_, rfl⟩ := normalizeBy_ok.mp answered
    rw [← onlyDigits_unmask other, same, onlyDigits_unmask]

theorem cpf_keeps (value : Text) (valid : isValidCpf value = true) :
    isValidCpf (onlyDigits value) = true ∧
      documentType (onlyDigits value) = documentType value := by
  have still := isValidCpf_onlyDigits valid
  exact ⟨still, by rw [documentType_of_cpf still, documentType_of_cpf valid]⟩

theorem cnpj_keeps (value : Text) (valid : isValidCnpj value = true) :
    isValidCnpj (onlyDigits value) = true ∧
      documentType (onlyDigits value) = documentType value := by
  have still := isValidCnpj_onlyDigits valid
  exact ⟨still, by rw [documentType_of_cnpj still, documentType_of_cnpj valid]⟩

theorem cpfCnpj_keeps (value : Text) (valid : isValidCpfCnpj value = true) :
    isValidCpfCnpj (onlyDigits value) = true ∧
      documentType (onlyDigits value) = documentType value := by
  rcases isValidCpfCnpj_iff.mp valid with cpf | cnpj
  · have ⟨still, kind⟩ := cpf_keeps value cpf
    exact ⟨isValidCpfCnpj_iff.mpr (.inl still), kind⟩
  · have ⟨still, kind⟩ := cnpj_keeps value cnpj
    exact ⟨isValidCpfCnpj_iff.mpr (.inr still), kind⟩

end

example : normalizeCpf "529.982.247-25".toList = .ok "52998224725".toList := by
  decide

end TempestSdk.Documents
