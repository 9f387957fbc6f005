import TempestSdk.Utils.UrlMask

/-!
# The secret parameters of a text

The second pass hides the values of the query parameters with a secret name.
-/

namespace TempestSdk.UrlMask

structure IsSecret (mark : Char) (name : Text) : Prop where
  mark : mark = '?' ∨ mark = '&'
  known : ∃ secret ∈ secretNames, sameText secret name = true

def Shows (text : Text) : Prop :=
  ∃ mark name rest, IsSecret mark name ∧ text = mark :: name ++ '=' :: rest

def NoSecret (text : Text) : Prop :=
  ∀ back, back <:+ text → ¬Shows back

def isNameLetter (char : Char) : Bool :=
  char.isAlpha || char == 'ſ'

def Breaks (text : Text) : Prop :=
  (text.dropWhile isNameLetter).head? ≠ some '='

section

variable {mark : Char} {name front rest text value : Text}

theorem sameText_length {letters chars : Text}
    (same : sameText letters chars = true) : letters.length = chars.length := by
  induction letters generalizing chars with
  | nil =>
    cases chars with
    | nil => rfl
    | cons char chars => cases same
  | cons letter letters induction =>
    cases chars with
    | nil => cases same
    | cons char chars =>
      have both := Bool.and_eq_true_iff.mp same
      rw [List.length_cons, List.length_cons, induction both.2]

theorem isAlpha_of_toLower {char : Char} (alpha : char.toLower.isAlpha = true) :
    char.isAlpha = true := by
  by_cases upper : char.isUpper = true
  · exact Bool.or_eq_true_iff.mpr (.inl upper)
  · have same : char.toLower = char := by
      apply dif_neg
      intro bounds
      exact upper (decide_eq_true bounds)
    rwa [same] at alpha

theorem letters_of_same {letters chars : Text}
    (lower : ∀ letter ∈ letters, letter.isAlpha = true)
    (same : sameText letters chars = true) :
    ∀ char ∈ chars, isNameLetter char = true := by
  induction letters generalizing chars with
  | nil =>
    cases chars with
    | nil => exact fun char member => absurd member List.not_mem_nil
    | cons char chars => cases same
  | cons letter letters induction =>
    cases chars with
    | nil => cases same
    | cons first chars =>
      have both := Bool.and_eq_true_iff.mp same
      intro char member
      rcases List.mem_cons.mp member with rfl | member
      · rcases Bool.or_eq_true_iff.mp both.1 with lowered | long
        · have alpha := lower letter List.mem_cons_self
          rw [← eq_of_beq lowered] at alpha
          exact Bool.or_eq_true_iff.mpr (.inl (isAlpha_of_toLower alpha))
        · exact Bool.or_eq_true_iff.mpr (.inr (Bool.and_eq_true_iff.mp long).2)
      · exact induction (fun letter inside => lower letter (List.mem_cons_of_mem _ inside))
          both.2 char member

theorem IsSecret.letters (secret : IsSecret mark name) :
    ∀ char ∈ name, isNameLetter char = true := by
  obtain ⟨known, listed, same⟩ := secret.known
  have alpha : secretNames.all (fun known => known.all Char.isAlpha) = true := by
    decide
  have letters := List.all_eq_true.mp alpha known listed
  exact letters_of_same (List.all_eq_true.mp letters) same

theorem IsSecret.no_equality (secret : IsSecret mark name) : '=' ∉ name :=
  fun member => absurd (secret.letters '=' member) (by decide)

theorem assigns_iff : assigns text name = true ↔
    ∃ written rest, text = written ++ '=' :: rest ∧ sameText name written = true := by
  unfold assigns
  rw [Bool.and_eq_true_iff, beq_iff_eq]
  constructor
  · rintro ⟨same, equality⟩
    refine ⟨text.take name.length, (text.drop name.length).tail, ?_, same⟩
    rw [List.cons_head?_tail equality, List.take_append_drop]
  · rintro ⟨written, rest, rfl, same⟩
    rw [sameText_length same, List.take_left, List.drop_left]
    exact ⟨same, rfl⟩

theorem findSecret_none (absent : ¬Shows text) : findSecret text = none := by
  unfold findSecret
  cases text with
  | nil => rfl
  | cons mark rest =>
    dsimp only
    split
    next marked =>
      rw [Option.map_eq_none_iff, List.find?_eq_none]
      intro name listed assigned
      obtain ⟨written, behind, rfl, same⟩ := (assigns_iff).mp assigned
      exact absent ⟨mark, written, behind, ⟨marked, name, listed, same⟩, rfl⟩
    next => rfl

theorem findSecret_some (secret : IsSecret mark name)
    (inside : ∀ char ∈ value, inValue char = true)
    (ended : ∀ char ∈ rest.head?, inValue char = false) :
    findSecret (mark :: name ++ '=' :: (value ++ rest)) =
      some (mark :: name ++ '=' :: hidden, rest) := by
  obtain ⟨known, listed, same⟩ := secret.known
  have assigned : assigns (name ++ '=' :: (value ++ rest)) known = true :=
    (assigns_iff).mpr ⟨name, value ++ rest, rfl, same⟩
  have some_name : (secretNames.find?
      (assigns (name ++ '=' :: (value ++ rest)))).isSome = true :=
    List.find?_isSome.mpr ⟨known, listed, assigned⟩
  obtain ⟨other, first⟩ := Option.isSome_iff_exists.mp some_name
  -- the first name that fits is as long as this one
  obtain ⟨written, behind, whole, other_same⟩ :=
    (assigns_iff).mp (List.find?_some first)
  have other_secret : IsSecret mark written :=
    ⟨secret.mark, other, List.mem_of_find?_eq_some first, other_same⟩
  obtain ⟨rfl, -⟩ :=
    PyStrings.cut_unique secret.no_equality other_secret.no_equality whole
  have outside : rest.dropWhile inValue = rest := by
    cases rest with
    | nil => rfl
    | cons char rest => exact List.dropWhile_cons_of_neg (by simpa using ended char rfl)
  have behind_equality : (name ++ '=' :: (value ++ rest)).drop
      (name.length + 1) = value ++ rest := by
    rw [← List.drop_drop, List.drop_left]
    rfl
  rw [List.cons_append, findSecret, if_pos secret.mark, first, Option.map_some, sameText_length other_same,
    List.take_left, behind_equality, List.dropWhile_append_of_pos inside, outside]

theorem findSecret_consuming : Substitution.Consuming findSecret := by
  intro text replacement behind found
  cases text with
  | nil => cases found
  | cons mark rest =>
    rw [findSecret] at found
    split at found
    next =>
      obtain ⟨name, -, same⟩ := Option.map_eq_some_iff.mp found
      cases same
      have shorter := (List.dropWhile_suffix
        (l := rest.drop (name.length + 1)) inValue).length_le
      rw [List.length_drop] at shorter
      rw [List.length_cons]
      omega
    next => cases found

theorem not_shows_append (breaks : Breaks rest) (nonempty : front ≠ [])
    (absent : ¬Shows front) : ¬Shows (front ++ rest) := by
  rintro ⟨mark, name, behind, secret, whole⟩
  rcases List.append_eq_append_iff.mp whole with
    ⟨more, same, other⟩ | ⟨more, same, other⟩
  · -- the name ends behind the front
    have letters : ∀ char ∈ more, isNameLetter char = true := by
      cases front with
      | nil => exact absurd rfl nonempty
      | cons first front =>
        rw [List.cons_append, List.cons.injEq] at same
        intro char member
        apply secret.letters
        rw [same.2]
        exact List.mem_append_right _ member
    apply breaks
    rw [other, List.dropWhile_append_of_pos letters]
    rfl
  · cases more with
    | nil =>
      apply breaks
      rw [List.nil_append] at other
      rw [← other]
      rfl
    | cons char more =>
      rw [List.cons_append, List.cons.injEq] at other
      obtain ⟨rfl, -⟩ := other
      exact absent ⟨mark, name, more, secret, same⟩

theorem maskSecrets_append (absent : NoSecret front) (breaks : Breaks rest) :
    maskSecrets (front ++ rest) = front ++ maskSecrets rest := by
  apply Substitution.sub_append
  intro back suffix nonempty
  exact findSecret_none (not_shows_append breaks nonempty (absent back suffix))

theorem NoSecret.append (absent : NoSecret front) (rest_absent : NoSecret rest)
    (breaks : Breaks rest) : NoSecret (front ++ rest) := by
  rintro back ⟨lead, whole⟩
  rcases List.append_eq_append_iff.mp whole with
    ⟨last, same, back_whole⟩ | ⟨more, same, rest_whole⟩
  · cases last with
    | nil => exact rest_absent back (back_whole ▸ List.suffix_refl _)
    | cons first last =>
      rw [back_whole]
      exact not_shows_append breaks (List.cons_ne_nil _ _)
        (absent _ (same ▸ List.suffix_append _ _))
  · exact rest_absent back (rest_whole ▸ List.suffix_append _ _)

theorem NoSecret.cons {char : Char} (absent : NoSecret rest)
    (unmarked : char ≠ '?' ∧ char ≠ '&') : NoSecret (char :: rest) := by
  intro back suffix
  rcases List.suffix_cons_iff.mp suffix with rfl | behind
  · rintro ⟨mark, name, more, secret, same⟩
    rw [List.cons_append, List.cons.injEq] at same
    obtain ⟨rfl, -⟩ := same
    exact secret.mark.elim unmarked.1 unmarked.2
  · exact absent back behind

theorem breaks_cons {char : Char} (letter : isNameLetter char = false)
    (equality : char ≠ '=') : Breaks (char :: rest) := by
  unfold Breaks
  rw [List.dropWhile_cons_of_neg (by simp [letter])]
  simpa using equality

theorem breaks_append (absent : '=' ∉ front) (breaks : Breaks rest) :
    Breaks (front ++ rest) := by
  induction front with
  | nil => exact breaks
  | cons first front induction =>
    have others := List.not_mem_of_not_mem_cons absent
    by_cases letter : isNameLetter first = true
    · unfold Breaks
      rw [List.cons_append, List.dropWhile_cons_of_pos letter]
      exact induction others
    · apply breaks_cons (Bool.not_eq_true _ ▸ letter)
      rintro rfl
      exact absent List.mem_cons_self

theorem noSecret_of_absent (absent : '=' ∉ text) : NoSecret text := by
  rintro back suffix ⟨mark, name, rest, secret, rfl⟩
  exact absent (suffix.subset (by simp))

end

end TempestSdk.UrlMask
