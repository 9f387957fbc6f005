import Mathlib.Data.List.Infix
import Mathlib.Data.List.TakeWhile

/-!
# The scheme and the authority of a URI

A text taken apart the way RFC 3986 does: a scheme is what stands before a
first colon when it is made of the characters of a scheme, an authority is what
stands between a double slash and the next slash, question mark or hash.  What
is written behind a text with an authority is glued on it when the text ends
with the authority.
-/

namespace UriText

def isSchemeChar (character : Char) : Bool :=
  character.isAlphanum || character == '+' || character == '.' || character == '-'

def inAuthority (character : Char) : Bool :=
  character != '/' && character != '?' && character != '#'

def hasScheme (text : List Char) : Bool :=
  (text.dropWhile isSchemeChar).head? == some ':' &&
    (text.takeWhile isSchemeChar).head?.all Char.isAlpha

def scheme (text : List Char) : List Char :=
  if hasScheme text then text.takeWhile isSchemeChar else []

def hierarchy (text : List Char) : List Char :=
  if hasScheme text then (text.dropWhile isSchemeChar).tail else text

def behindSlashes (text : List Char) : Option (List Char) :=
  if ['/', '/'].isPrefixOf (hierarchy text) then
    some ((hierarchy text).drop 2)
  else none

def authority (text : List Char) : List Char :=
  ((behindSlashes text).getD []).takeWhile inAuthority

/-- What a text behind `base` adds to its authority. -/
def glued (base text : List Char) : List Char :=
  if ((behindSlashes base).getD []).all inAuthority then
    text.takeWhile inAuthority
  else []

variable {base text rest : List Char}

theorem behindSlashes_eq_some :
    behindSlashes text = some rest ↔ hierarchy text = '/' :: '/' :: rest := by
  unfold behindSlashes
  constructor
  · intro found
    split at found
    next slashes =>
      obtain ⟨tail, whole⟩ := List.isPrefixOf_iff_prefix.mp slashes
      rw [← whole] at found ⊢
      cases found
      rfl
    next => cases found
  · intro whole
    rw [whole]
    rfl

theorem behindSlashes_append (found : behindSlashes base = some rest) (text : List Char) :
    behindSlashes (base ++ text) = some (rest ++ text) := by
  rw [behindSlashes_eq_some] at found ⊢
  by_cases named : hasScheme base = true
  · have whole : (base.dropWhile isSchemeChar).tail = '/' :: '/' :: rest := by
      rwa [hierarchy, if_pos named] at found
    have colon : (base.dropWhile isSchemeChar).head? = some ':' := by
      have both := Bool.and_eq_true_iff.mp named
      exact eq_of_beq both.1
    have parts : base.dropWhile isSchemeChar = ':' :: '/' :: '/' :: rest := by
      rw [← whole]
      exact List.eq_cons_of_mem_head? colon
    have dropped : (base ++ text).dropWhile isSchemeChar =
        ':' :: '/' :: '/' :: (rest ++ text) := by
      rw [List.dropWhile_append, parts]
      rfl
    have taken : (base ++ text).takeWhile isSchemeChar = base.takeWhile isSchemeChar := by
      rw [List.takeWhile_append, if_neg]
      intro all
      have whole : base.takeWhile isSchemeChar ++
          base.dropWhile isSchemeChar = base := List.takeWhile_append_dropWhile
      have lengths := congrArg List.length whole
      rw [List.length_append, parts, all] at lengths
      simp at lengths
    have still : hasScheme (base ++ text) = true := by
      unfold hasScheme at named ⊢
      rw [dropped, taken]
      rw [parts] at named
      exact named
    rw [hierarchy, if_pos still, dropped]
    rfl
  · have whole : base = '/' :: '/' :: rest := by
      rwa [hierarchy, if_neg named] at found
    have unnamed : ¬hasScheme (base ++ text) = true := by
      rw [whole]
      intro named
      have both := Bool.and_eq_true_iff.mp named
      cases both.1
    rw [hierarchy, if_neg unnamed, whole]
    rfl

theorem authority_append (found : behindSlashes base = some rest) (text : List Char) :
    authority (base ++ text) = authority base ++ glued base text := by
  unfold authority glued
  rw [behindSlashes_append found, found, Option.getD_some, Option.getD_some]
  by_cases all : rest.all inAuthority = true
  · have every := List.all_eq_true.mp all
    rw [if_pos all, List.takeWhile_append_of_pos every, List.takeWhile_eq_self_iff.mpr every]
  · rw [if_neg all, List.append_nil, List.takeWhile_append, if_neg]
    intro same
    apply all
    rw [List.all_eq_true]
    have whole : rest.takeWhile inAuthority = rest :=
      (List.takeWhile_prefix _).eq_of_length same
    exact List.takeWhile_eq_self_iff.mp whole

theorem infix_of_absolute (named : scheme text ≠ []) (found : behindSlashes text = some rest) :
    [':', '/', '/'] <:+: text := by
  have has : hasScheme text = true := by
    by_contra unnamed
    exact named (by rw [scheme, if_neg unnamed])
  have whole := (behindSlashes_eq_some).mp found
  rw [hierarchy, if_pos has] at whole
  have colon := eq_of_beq (Bool.and_eq_true_iff.mp has).1
  have parts := List.eq_cons_of_mem_head? colon
  rw [whole] at parts
  refine ⟨text.takeWhile isSchemeChar, rest, ?_⟩
  rw [List.append_assoc]
  exact (congrArg _ parts.symm).trans List.takeWhile_append_dropWhile

end UriText
