import TempestSdk.Utils.UrlMask

/-!
# The URLs of a text

The first pass goes over a text in which URLs stand between other parts.  A part
in which no scheme and separator begin is passed over, whatever follows that
does not complete one; a URL has its authority replaced.
-/

namespace TempestSdk.UrlMask

open UriText (isSchemeChar)

structure IsScheme (scheme : Text) : Prop where
  alpha : scheme.head?.any Char.isAlpha = true
  chars : ∀ char ∈ scheme, isSchemeChar char = true

def Begins (text : Text) : Prop :=
  ∃ scheme rest, IsScheme scheme ∧ text = scheme ++ separator ++ rest

def Quiet (text : Text) : Prop :=
  ∀ back, back <:+ text → ¬Begins back

def Opens (property : Char → Prop) (text : Text) : Prop :=
  ∀ char ∈ text.head?, property char

def Blocks (text : Text) : Prop :=
  Opens (fun char => isSchemeChar char = false ∧ char ≠ ':' ∧ char ≠ '/') text

section

variable {scheme front rest text : Text} {segments : List Segment}

section

variable (named : IsScheme scheme)

include named

theorem IsScheme.ne_nil : scheme ≠ [] := by
  rintro rfl
  have absurd := named.alpha
  cases absurd

theorem IsScheme.opens (rest : Text) :
    Opens (fun char => char.isAlpha = true) (scheme ++ rest) := by
  intro char first
  cases scheme with
  | nil => exact absurd rfl named.ne_nil
  | cons letter scheme =>
    cases first
    exact named.alpha

theorem IsScheme.takeWhile (rest : Text) :
    (scheme ++ separator ++ rest).takeWhile isSchemeChar = scheme := by
  rw [List.append_assoc, List.takeWhile_append_of_pos named.chars]
  exact List.append_nil scheme

theorem IsScheme.dropWhile (rest : Text) :
    (scheme ++ separator ++ rest).dropWhile isSchemeChar = separator ++ rest := by
  rw [List.append_assoc, List.dropWhile_append_of_pos named.chars]
  rfl

end

theorem findUrl_none (absent : ¬Begins text) : findUrl text = none := by
  unfold findUrl
  apply if_neg
  intro both
  obtain ⟨alpha, separated⟩ := Bool.and_eq_true_iff.mp both
  obtain ⟨rest, whole⟩ := List.isPrefixOf_iff_prefix.mp separated
  refine absent ⟨text.takeWhile isSchemeChar, rest,
    ⟨alpha, fun char => List.mem_takeWhile_imp⟩, ?_⟩
  rw [List.append_assoc, whole, List.takeWhile_append_dropWhile]

theorem findUrl_some (named : IsScheme scheme)
    (valid : ∀ segment ∈ segments, segment.Valid) (some_segment : segments ≠ [])
    (ended : Opens (fun char => inAuthority char = false) rest) :
    findUrl (scheme ++ separator ++ (authority segments ++ rest)) =
      some (scheme ++ separator ++ authority (segments.map Segment.masked), rest) := by
  have inside : ∀ char ∈ authority segments, inAuthority char = true :=
    fun char => mem_authority valid
  have outside : rest.takeWhile inAuthority = [] ∧ rest.dropWhile inAuthority = rest := by
    cases rest with
    | nil => exact ⟨rfl, rfl⟩
    | cons char rest =>
      have stops := ended char rfl
      exact ⟨List.takeWhile_cons_of_neg (by simpa using stops),
        List.dropWhile_cons_of_neg (by simpa using stops)⟩
  have found : (scheme.head?.any Char.isAlpha && separator.isPrefixOf
      (separator ++ (authority segments ++ rest))) = true := by
    rw [named.alpha]
    exact List.isPrefixOf_iff_prefix.mpr (List.prefix_append _ _)
  have behind : (separator ++ (authority segments ++ rest)).drop 3 =
      authority segments ++ rest := rfl
  unfold findUrl
  rw [named.takeWhile, named.dropWhile]
  dsimp only
  rw [if_pos found, behind, List.takeWhile_append_of_pos inside,
    List.dropWhile_append_of_pos inside, outside.1, outside.2, List.append_nil,
    maskAuthority_eq valid some_segment]

theorem findUrl_consuming : Substitution.Consuming findUrl := by
  intro text replacement behind found
  unfold findUrl at found
  dsimp only at found
  split at found
  next both =>
    cases found
    obtain ⟨alpha, separated⟩ := Bool.and_eq_true_iff.mp both
    have whole := List.takeWhile_append_dropWhile (p := isSchemeChar) (l := text)
    have long := (List.isPrefixOf_iff_prefix.mp separated).length_le
    have total := congrArg List.length whole
    have shorter := (List.dropWhile_suffix (l := (text.dropWhile isSchemeChar).drop 3)
      inAuthority).length_le
    rw [List.length_append] at total
    rw [List.length_drop] at shorter
    change 3 ≤ _ at long
    omega
  next => cases found

theorem not_begins_append (closed : Opens (fun char => char ≠ ':' ∧ char ≠ '/') rest)
    (stopped : IsScheme front → Opens (fun char => isSchemeChar char = false) rest)
    (nonempty : front ≠ []) (absent : ¬Begins front) :
    ¬Begins (front ++ rest) := by
  rintro ⟨scheme, behind, named, whole⟩
  rw [List.append_assoc] at whole
  rcases List.append_eq_append_iff.mp whole with
    ⟨more, same, other⟩ | ⟨more, same, other⟩
  · -- the scheme ends behind the front
    have front_named : IsScheme front := by
      refine ⟨?_, fun char member =>
        named.chars char (by rw [same]; exact List.mem_append_left _ member)⟩
      have alpha := named.alpha
      rwa [same, List.head?_append_of_ne_nil _ nonempty] at alpha
    cases more with
    | nil => exact (closed ':' (by rw [other]; rfl)).1 rfl
    | cons char more =>
      have known := named.chars char (by rw [same]; simp)
      rw [stopped front_named char (by rw [other]; rfl)] at known
      cases known
  · rcases List.append_eq_append_iff.mp other with
      ⟨last, same_more, other_rest⟩ | ⟨last, same_separator, other_rest⟩
    · exact absent ⟨scheme, last, named, by rw [same, same_more, List.append_assoc]⟩
    · -- the separator ends behind the front
      cases last with
      | nil =>
        have same_more : more = separator := by
          rw [same_separator, List.append_nil]
        exact absent ⟨scheme, [], named, by rw [same, same_more, List.append_nil]⟩
      | cons char last =>
        have known : char ∈ separator := by rw [same_separator]; simp
        have both := closed char (by rw [other_rest]; rfl)
        have mark : char = ':' ∨ char = '/' := by simpa [separator] using known
        exact mark.elim both.1 both.2

theorem Quiet.tail {char : Char} (quiet : Quiet (char :: rest)) : Quiet rest :=
  fun back suffix => quiet back (suffix.trans (List.suffix_cons char rest))

theorem maskCredentials_append (quiet : Quiet front) (blocks : Blocks rest) :
    maskCredentials (front ++ rest) = front ++ maskCredentials rest := by
  apply Substitution.sub_append
  intro back suffix nonempty
  apply findUrl_none
  exact not_begins_append (fun char first => (blocks char first).2)
    (fun _ char first => (blocks char first).1) nonempty (quiet back suffix)

theorem IsScheme.append {lead : Text} (front_named : IsScheme lead)
    (named : IsScheme scheme) : IsScheme (lead ++ scheme) := by
  refine ⟨?_, ?_⟩
  · rw [List.head?_append_of_ne_nil _ front_named.ne_nil]
    exact front_named.alpha
  · intro char member
    rcases List.mem_append.mp member with before | behind
    · exact front_named.chars char before
    · exact named.chars char behind

theorem maskCredentials_url (quiet : Quiet front) (named : IsScheme scheme)
    (valid : ∀ segment ∈ segments, segment.Valid) (some_segment : segments ≠ [])
    (ended : Opens (fun char => inAuthority char = false) rest) :
    maskCredentials (front ++ (scheme ++ separator ++ (authority segments ++ rest))) =
      front ++ (scheme ++ separator ++
        (authority (segments.map Segment.masked) ++ maskCredentials rest)) := by
  induction front with
  | nil =>
    have found := findUrl_some named valid some_segment ended
    have masked := Substitution.sub_found findUrl_consuming found
    simpa only [maskCredentials, List.nil_append, List.append_assoc] using masked
  | cons first front induction =>
    by_cases joined : IsScheme (first :: front)
    · have found := findUrl_some (joined.append named) valid some_segment ended
      have masked := Substitution.sub_found findUrl_consuming found
      simpa only [maskCredentials, List.append_assoc] using masked
    · have passed : ¬Begins ((first :: front) ++
          (scheme ++ separator ++ (authority segments ++ rest))) := by
        apply not_begins_append _ (fun contrary => absurd contrary joined)
          (List.cons_ne_nil _ _) (quiet _ (List.suffix_refl _))
        intro char opening
        rw [List.append_assoc] at opening
        have letter := named.opens _ char opening
        constructor
        · rintro rfl
          exact absurd letter (by decide)
        · rintro rfl
          exact absurd letter (by decide)
      have step := Substitution.sub_passed (findUrl_none passed)
      exact step.trans (congrArg (first :: ·) (induction quiet.tail))

end

end TempestSdk.UrlMask
