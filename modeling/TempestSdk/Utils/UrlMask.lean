import TempestSdk.Library.Joined
import TempestSdk.Library.PyStrings
import TempestSdk.Library.Substitution
import TempestSdk.Library.UriText

/-!
# Passwords in URLs

A text that may hold connection URLs is surfaced with stars in place of their
passwords: first in the authority of every `scheme://authority`, and then in
the query.  What SQLAlchemy makes of the text is a parameter.
-/

namespace TempestSdk.UrlMask

open PyDecimal (isSpace)
open UriText (isSchemeChar)

abbrev Text := List Char

def hidden : Text := ['*', '*', '*']

def separator : Text := [':', '/', '/']

def inAuthority (char : Char) : Bool :=
  char ≠ '/' && char ≠ '?' && char ≠ '#' && !isSpace char

def maskHostSegment (segment : Text) : Text :=
  if '@' ∉ segment then segment
  else
    let cut := PyStrings.rpartition '@' segment
    let userinfo := cut.before
    let host := cut.after
    if ':' ∉ userinfo then segment
    else (PyStrings.partition ':' userinfo).before ++ ':' :: hidden ++ '@' :: host

def maskAuthority (authority : Text) : Text :=
  Joined.join ',' ((authority.splitOn ',').map maskHostSegment)

/-- A match of `_URL_PATTERN` at the start, replaced by `_replace`. -/
def findUrl : Substitution.Finder Char := fun text =>
  let scheme := text.takeWhile isSchemeChar
  let behind := text.dropWhile isSchemeChar
  if scheme.head?.any Char.isAlpha && separator.isPrefixOf behind then
    let rest := behind.drop 3
    some (scheme ++ separator ++ maskAuthority (rest.takeWhile inAuthority),
      rest.dropWhile inAuthority)
  else none

def maskCredentials (url : Text) : Text := Substitution.sub findUrl url

def secretNames : List Text :=
  ["password".toList, "passwd".toList, "pwd".toList, "secret".toList]

def sameLetter (letter char : Char) : Bool :=
  char.toLower == letter || (letter == 's' && char == 'ſ')

def sameText : Text → Text → Bool
  | [], [] => true
  | letter :: letters, char :: chars => sameLetter letter char && sameText letters chars
  | _, _ => false

def inValue (char : Char) : Bool :=
  char ≠ '&' && char ≠ '#' && !isSpace char

def assigns (text name : Text) : Bool :=
  sameText name (text.take name.length) && (text.drop name.length).head? == some '='

/-- A match of `_QUERY_SECRET_PATTERN` at the start, with its value hidden. -/
def findSecret : Substitution.Finder Char
  | [] => none
  | mark :: rest =>
    if mark = '?' ∨ mark = '&' then
      (secretNames.find? (assigns rest)).map fun name =>
        (mark :: rest.take name.length ++ '=' :: hidden,
          (rest.drop (name.length + 1)).dropWhile inValue)
    else none

/-- The last line of `mask_url_password`. -/
def maskSecrets (url : Text) : Text := Substitution.sub findSecret url

/-- `mask_url_password`; `makeUrl` renders a URL with its password hidden, and
is `none` where it raises. -/
def maskUrlPassword (makeUrl : Text → Option Text) (url : Text) : Text :=
  maskSecrets (maskCredentials ((makeUrl url).getD url))

/-- A host of an authority, with or without a password. -/
inductive Segment where
  | bare (text : Text)
  | credential (user password host : Text)
deriving DecidableEq

namespace Segment

def text : Segment → Text
  | bare text => text
  | credential user password host => user ++ ':' :: password ++ '@' :: host

def masked : Segment → Segment
  | bare text => bare text
  | credential user _ host => credential user hidden host

/-- A host as it stands between the commas of an authority. -/
structure Valid (segment : Segment) : Prop where
  plain : ∀ char ∈ segment.text, inAuthority char = true ∧ char ≠ ','
  /-- Without a password, no colon stands before the last at sign. -/
  bare : ∀ front host, segment = .bare (front ++ '@' :: host) → '@' ∉ host → ':' ∉ front
  user : ∀ user password host, segment = .credential user password host →
    ':' ∉ user ∧ '@' ∉ host

end Segment

section

variable {segment : Segment} {segments : List Segment}

theorem rpartition_cut {separator : Char} {lead trail : Text} (absent : separator ∉ trail) :
    PyStrings.rpartition separator (lead ++ separator :: trail) = ⟨lead, true, trail⟩ := by
  have others : ∀ char ∈ trail.reverse, decide (char ≠ separator) = true := by
    intro char member
    apply decide_eq_true
    rintro rfl
    exact absent (List.mem_reverse.mp member)
  have turned : (lead ++ separator :: trail).reverse =
      trail.reverse ++ separator :: lead.reverse := by
    simp
  unfold PyStrings.rpartition List.rdropWhile List.rtakeWhile
  rw [turned, List.dropWhile_append_of_pos others, List.takeWhile_append_of_pos others]
  simp

theorem exists_last_cut {separator : Char} {text : Text} (member : separator ∈ text) :
    ∃ lead trail, text = lead ++ separator :: trail ∧ separator ∉ trail := by
  obtain ⟨lead, trail, same, absent⟩ :=
    List.eq_append_cons_of_mem (List.mem_reverse.mpr member)
  refine ⟨trail.reverse, lead.reverse, ?_, by simpa using absent⟩
  have turned := congrArg List.reverse same
  simpa using turned

theorem maskHostSegment_text (valid : segment.Valid) :
    maskHostSegment segment.text = segment.masked.text := by
  unfold maskHostSegment
  cases segment with
  | bare text =>
    change (if '@' ∉ text then text else _) = text
    by_cases present : '@' ∈ text
    · rw [if_neg (not_not.mpr present)]
      obtain ⟨lead, trail, rfl, absent⟩ := exists_last_cut present
      change (if ':' ∉ (PyStrings.rpartition '@' (lead ++ '@' :: trail)).before
        then lead ++ '@' :: trail else _) = lead ++ '@' :: trail
      rw [rpartition_cut absent]
      exact if_pos (valid.bare lead trail rfl absent)
    · exact if_pos present
  | credential user password host =>
    obtain ⟨no_colon, no_sign⟩ := valid.user user password host rfl
    have present : '@' ∈ (Segment.credential user password host).text :=
      List.mem_append_right _ List.mem_cons_self
    rw [if_neg (not_not.mpr present)]
    have cut : PyStrings.rpartition '@' (Segment.credential user password host).text =
          ⟨user ++ ':' :: password, true, host⟩ := rpartition_cut no_sign
    dsimp only
    rw [cut]
    dsimp only
    rw [if_neg (by simp), PyStrings.partition_cut no_colon]
    rfl

theorem Segment.Valid.masked (valid : segment.Valid) : segment.masked.Valid := by
  cases segment with
  | bare text => exact valid
  | credential user password host =>
    refine ⟨?_, ?_, ?_⟩
    · intro char member
      rcases List.mem_append.mp member with front | back
      · rcases List.mem_append.mp front with in_user | rest
        · exact valid.plain char (List.mem_append_left _ (List.mem_append_left _ in_user))
        · rcases List.mem_cons.mp rest with rfl | star
          · decide
          · have same : char = '*' := by simpa [hidden] using star
            rw [same]
            decide
      · exact valid.plain char (List.mem_append_right _ back)
    · intro front other same
      cases same
    · intro user_name secret name same
      cases same
      exact valid.user user password host rfl

theorem masked_masked (segment : Segment) : segment.masked.masked = segment.masked := by
  cases segment with
  | bare text => rfl
  | credential user password host => rfl

def authority (segments : List Segment) : Text :=
  Joined.join ',' (segments.map Segment.text)

section

variable (valid : ∀ segment ∈ segments, segment.Valid)

include valid

theorem pieces_texts :
    Joined.pieces ',' (segments.map Segment.text) = segments.map Segment.text := by
  unfold Joined.pieces
  induction segments with
  | nil => rfl
  | cons segment segments induction =>
    have whole : ',' ∉ segment.text := fun member =>
      ((valid segment List.mem_cons_self).plain ',' member).2 rfl
    rw [List.map_cons, List.map_cons, List.flatten_cons, List.splitOn_eq_singleton whole,
      induction fun other member => valid other (List.mem_cons_of_mem _ member)]
    rfl

theorem maskAuthority_eq (some_segment : segments ≠ []) :
    maskAuthority (authority segments) = authority (segments.map Segment.masked) := by
  unfold maskAuthority authority
  rw [Joined.splitOn_join (by simpa using some_segment), pieces_texts valid,
    List.map_map, List.map_map]
  congr 1
  apply List.map_congr_left
  intro segment member
  exact maskHostSegment_text (valid segment member)

theorem mem_authority {char : Char} (member : char ∈ authority segments) :
    inAuthority char = true := by
  rcases PyStrings.mem_intercalate member with rfl | ⟨part, known, inside⟩
  · decide
  · obtain ⟨segment, listed, rfl⟩ := List.mem_map.mp known
    exact ((valid segment listed).plain char inside).1

end

end

end TempestSdk.UrlMask
