import Mathlib.Data.List.Chain
import TempestSdk.Utils.UrlSecrets
import TempestSdk.Utils.UrlTexts

/-!
# Masking a text with URLs and secret parameters

A text is taken as a row of pieces: URLs, query parameters with a secret name,
and what stands between them.  The mask replaces the passwords and the secret
values, keeps everything else as it stands, and changes nothing of a text that
is masked already.
-/

namespace TempestSdk.UrlMask

open PyDecimal (isSpace)
open PyStrings (code_of_alphanum)
open UriText (isSchemeChar)

/-- No secret parameter begins in a host, its password aside. -/
def Segment.Discreet : Segment → Prop
  | .bare text => NoSecret text
  | .credential user _ host => NoSecret user ∧ NoSecret host

inductive Piece where
  | plain (text : Text)
  | url (scheme : Text) (segments : List Segment)
  | secret (mark : Char) (name value : Text)
deriving DecidableEq

namespace Piece

def text : Piece → Text
  | plain text => text
  | url scheme segments => scheme ++ separator ++ authority segments
  | secret mark name value => mark :: name ++ '=' :: value

/-- The piece with its passwords replaced, and nothing else. -/
def urlMasked : Piece → Piece
  | url scheme segments => url scheme (segments.map Segment.masked)
  | other => other

def masked : Piece → Piece
  | plain text => plain text
  | url scheme segments => url scheme (segments.map Segment.masked)
  | secret mark name _ => secret mark name hidden

inductive Valid : Piece → Prop where
  | plain {text : Text} (nonempty : text ≠ []) (quiet : Quiet text)
      (absent : NoSecret text) : Valid (plain text)
  | url {scheme : Text} {segments : List Segment} (named : IsScheme scheme)
      (some_segment : segments ≠ [])
      (hosts : ∀ segment ∈ segments, segment.Valid)
      (discreet : ∀ segment ∈ segments, segment.Discreet) :
      Valid (url scheme segments)
  | secret {mark : Char} {name value : Text} (known : IsSecret mark name)
      (inside : ∀ char ∈ value, inValue char = true) (quiet : Quiet value) :
      Valid (secret mark name value)

def Follows : Piece → Piece → Prop
  | plain _, url _ _ => True
  | plain _, secret _ _ _ => True
  | url _ _, plain text => Opens (fun char => inAuthority char = false) text
  | url _ _, secret mark _ _ => mark = '?'
  | secret _ _ _, plain text => Opens (fun char => inValue char = false) text
  | secret _ _ _, secret mark _ _ => mark = '&'
  | _, _ => False

end Piece

def written (pieces : List Piece) : Text :=
  pieces.flatMap Piece.text

/-- Pieces that can be told apart in their text. -/
structure Tidy (pieces : List Piece) : Prop where
  valid : ∀ piece ∈ pieces, piece.Valid
  follows : pieces.IsChain Piece.Follows

section

variable {segment : Segment} {segments : List Segment} {piece : Piece}
variable {pieces rest : List Piece} {scheme name value : Text} {mark : Char}

@[simp] theorem written_cons :
    written (piece :: rest) = piece.text ++ written rest := rfl

theorem Tidy.tail (tidy : Tidy (piece :: rest)) : Tidy rest where
  valid other member := tidy.valid other (List.mem_cons_of_mem _ member)
  follows := tidy.follows.tail

theorem Tidy.map {change : Piece → Piece} (tidy : Tidy pieces)
    (valid : ∀ piece : Piece, piece.Valid → (change piece).Valid)
    (follows : ∀ piece other, Piece.Follows piece other →
      Piece.Follows (change piece) (change other)) :
    Tidy (pieces.map change) where
  valid piece member := by
    obtain ⟨before, listed, rfl⟩ := List.mem_map.mp member
    exact valid before (tidy.valid before listed)
  follows := by
    rw [List.isChain_map]
    exact tidy.follows.imp fun piece other => follows piece other

theorem Segment.Discreet.masked (discreet : segment.Discreet) : segment.masked.Discreet := by
  cases segment with
  | bare text => exact discreet
  | credential user password host => exact discreet

theorem masked_segments (segments : List Segment) :
    (segments.map Segment.masked).map Segment.masked = segments.map Segment.masked := by
  rw [List.map_map]
  exact List.map_congr_left fun segment _ => masked_masked segment

theorem Piece.Valid.urlMasked (valid : piece.Valid) : piece.urlMasked.Valid := by
  cases valid with
  | plain nonempty quiet absent => exact .plain nonempty quiet absent
  | url named some_segment hosts discreet =>
    refine .url named (by simpa using some_segment) ?_ ?_
    · intro segment member
      obtain ⟨before, listed, rfl⟩ := List.mem_map.mp member
      exact (hosts before listed).masked
    · intro segment member
      obtain ⟨before, listed, rfl⟩ := List.mem_map.mp member
      exact (discreet before listed).masked
  | secret known inside quiet => exact .secret known inside quiet

variable {text : Text}

theorem quiet_of_absent (absent : ':' ∉ text) : Quiet text := by
  rintro back suffix ⟨scheme, rest, named, rfl⟩
  exact absent (suffix.subset (by simp [separator]))

theorem Piece.Valid.masked (valid : piece.Valid) : piece.masked.Valid := by
  cases valid with
  | plain nonempty quiet absent => exact .plain nonempty quiet absent
  | url named some_segment hosts discreet =>
    exact (Piece.Valid.url named some_segment hosts discreet).urlMasked
  | secret known inside quiet =>
    exact .secret known (List.all_eq_true.mp (by decide))
      (quiet_of_absent (by decide))

theorem follows_urlMasked (piece other : Piece) (follows : Piece.Follows piece other) :
    Piece.Follows piece.urlMasked other.urlMasked := by
  cases piece <;> cases other <;> exact follows

theorem follows_masked (piece other : Piece) (follows : Piece.Follows piece other) :
    Piece.Follows piece.masked other.masked := by
  cases piece <;> cases other <;> exact follows

theorem masked_urlMasked (piece : Piece) : piece.urlMasked.masked = piece.masked := by
  cases piece with
  | plain text => rfl
  | url scheme segments => exact congrArg (Piece.url scheme) (masked_segments segments)
  | secret mark name value => rfl

theorem Piece.urlMasked_urlMasked (piece : Piece) :
    piece.urlMasked.urlMasked = piece.urlMasked := by
  cases piece with
  | plain text => rfl
  | url scheme segments => exact congrArg (Piece.url scheme) (masked_segments segments)
  | secret mark name value => rfl

theorem Piece.masked_masked (piece : Piece) : piece.masked.masked = piece.masked := by
  cases piece with
  | plain text => rfl
  | url scheme segments => exact congrArg (Piece.url scheme) (masked_segments segments)
  | secret mark name value => rfl

theorem opens_append {property : Char → Prop} {front : Text}
    (nonempty : front ≠ []) (opens : Opens property front) (behind : Text) :
    Opens property (front ++ behind) := by
  intro char first
  rw [List.head?_append_of_ne_nil _ nonempty] at first
  exact opens char first

theorem opens_after_url (tidy : Tidy (.url scheme segments :: rest)) :
    Opens (fun char => inAuthority char = false) (written rest) := by
  cases rest with
  | nil => exact fun char first => by cases first
  | cons next rest =>
    have follows := (List.isChain_cons_cons.mp tidy.follows).1
    have next_valid := tidy.valid next (by simp)
    cases next_valid with
    | plain nonempty quiet absent => exact opens_append nonempty follows (written rest)
    | url named some_segment hosts discreet => exact absurd follows id
    | secret known inside quiet =>
      change _ = '?' at follows
      intro char first
      cases first
      rw [follows]
      decide

theorem opens_after_secret (tidy : Tidy (.secret mark name value :: rest)) :
    Opens (fun char => inValue char = false) (written rest) := by
  cases rest with
  | nil => exact fun char first => by cases first
  | cons next rest =>
    have follows := (List.isChain_cons_cons.mp tidy.follows).1
    have next_valid := tidy.valid next (by simp)
    cases next_valid with
    | plain nonempty quiet absent => exact opens_append nonempty follows (written rest)
    | url named some_segment hosts discreet => exact absurd follows id
    | secret known inside quiet =>
      change _ = '&' at follows
      intro char first
      cases first
      rw [follows]
      decide

theorem url_text (scheme : Text) (segments : List Segment) (behind : Text) :
    (Piece.url scheme segments).text ++ behind =
      scheme ++ separator ++ (authority segments ++ behind) :=
  List.append_assoc _ _ _

theorem quiet_nil : Quiet [] := quiet_of_absent List.not_mem_nil

variable {char : Char}

theorem Quiet.cons (quiet : Quiet text) (outside : isSchemeChar char = false) :
    Quiet (char :: text) := by
  intro back suffix
  rcases List.suffix_cons_iff.mp suffix with rfl | behind
  · rintro ⟨scheme, more, named, same⟩
    cases scheme with
    | nil => exact named.ne_nil rfl
    | cons first scheme =>
      rw [List.cons_append, List.cons_append, List.cons.injEq] at same
      have inside := named.chars first List.mem_cons_self
      rw [← same.1, outside] at inside
      cases inside
  · exact quiet back behind

theorem blocks_cons (outside : isSchemeChar char = false ∧ char ≠ ':' ∧ char ≠ '/') :
    Blocks (char :: text) := by
  intro other first
  cases first
  exact outside

theorem space_code (space : isSpace char = true) :
    (char.toNat ≤ 32 ∨ 133 ≤ char.toNat) ∧ char ≠ 'ſ' := by
  constructor
  · simp only [isSpace, Bool.or_eq_true, Bool.and_eq_true, decide_eq_true_eq,
      List.mem_cons, List.not_mem_nil, or_false] at space
    omega
  · rintro rfl
    exact absurd space (by decide)

theorem not_alphanum_of_space (space : isSpace char = true) : char.isAlphanum = false := by
  rw [Bool.eq_false_iff]
  intro known
  have code := code_of_alphanum known
  have range := (space_code space).1
  omega

theorem space_outside (space : isSpace char = true) :
    (isSchemeChar char = false ∧ char ≠ ':' ∧ char ≠ '/') ∧
      isNameLetter char = false ∧ char ≠ '=' := by
  have other : ∀ mark, isSpace mark = false → char ≠ mark := by
    intro mark visible same
    rw [same, visible] at space
    cases space
  have letters := not_alphanum_of_space space
  have alpha : char.isAlpha = false := (Bool.or_eq_false_iff.mp letters).1
  have long := (space_code space).2
  refine ⟨⟨?_, other ':' (by decide), other '/' (by decide)⟩, ?_,
    other '=' (by decide)⟩
  · simp [isSchemeChar, letters, other '+' (by decide), other '.' (by decide),
      other '-' (by decide)]
  · simp [isNameLetter, alpha, long]

theorem name_ends_with_authority (ends : inAuthority char = false) :
    isNameLetter char = false ∧ char ≠ '=' := by
  by_cases space : isSpace char = true
  · exact (space_outside space).2
  · have mark : char = '/' ∨ char = '?' ∨ char = '#' := by
      simp only [inAuthority, space, Bool.and_eq_false_iff] at ends
      simpa [or_assoc] using ends
    rcases mark with rfl | rfl | rfl <;> decide

theorem outside_value (ends : inValue char = false) :
    (isSchemeChar char = false ∧ char ≠ ':' ∧ char ≠ '/') ∧
      isNameLetter char = false ∧ char ≠ '=' := by
  by_cases space : isSpace char = true
  · exact space_outside space
  · have mark : char = '&' ∨ char = '#' := by
      simp only [inValue, space, Bool.and_eq_false_iff] at ends
      simpa using ends
    rcases mark with rfl | rfl <;> decide

theorem mark_outside (known : IsSecret mark name) :
    isSchemeChar mark = false ∧ mark ≠ ':' ∧ mark ≠ '/' := by
  rcases known.mark with rfl | rfl <;> decide

theorem maskCredentials_piece (tidy : Tidy (piece :: rest)) :
    maskCredentials (piece.text ++ written rest) =
      piece.urlMasked.text ++ maskCredentials (written rest) := by
  have piece_valid := tidy.valid piece List.mem_cons_self
  cases piece_valid with
  | plain nonempty quiet absent =>
    cases rest with
    | nil => exact maskCredentials_append quiet fun char first => by cases first
    | cons next rest =>
      have follows := (List.isChain_cons_cons.mp tidy.follows).1
      have next_valid := tidy.valid next (by simp)
      cases next_valid with
      | plain => exact absurd follows id
      | url named some_segment hosts discreet =>
        have ended := opens_after_url tidy.tail
        have alone :=
          maskCredentials_url quiet_nil named hosts some_segment ended
        rw [written_cons, url_text]
        rw [List.nil_append, List.nil_append] at alone
        rw [alone]
        exact maskCredentials_url quiet named hosts some_segment ended
      | secret known inside value_quiet =>
        exact maskCredentials_append quiet (blocks_cons (mark_outside known))
  | url named some_segment hosts discreet =>
    have ended := opens_after_url tidy
    rw [url_text]
    exact (maskCredentials_url quiet_nil named hosts some_segment ended).trans
      (url_text _ _ _).symm
  | @secret mark name value known inside quiet =>
    have named : Quiet (mark :: name) := by
      apply quiet_of_absent
      intro member
      rcases List.mem_cons.mp member with rfl | member
      · exact (mark_outside known).2.1 rfl
      · exact absurd (known.letters ':' member) (by decide)
    have value_quiet : Quiet ('=' :: value) := quiet.cons (by decide)
    have ended : Blocks (written rest) := fun char first =>
      (outside_value (opens_after_secret tidy char first)).1
    calc
      maskCredentials ((mark :: name ++ '=' :: value) ++ written rest) =
          maskCredentials (mark :: name ++ ('=' :: value ++ written rest)) := by
        rw [List.append_assoc]
      _ = mark :: name ++ maskCredentials ('=' :: value ++ written rest) :=
        maskCredentials_append named (blocks_cons (by decide))
      _ = mark :: name ++ ('=' :: value ++ maskCredentials (written rest)) := by
        rw [maskCredentials_append value_quiet ended]
      _ = (mark :: name ++ '=' :: value) ++ maskCredentials (written rest) :=
        (List.append_assoc _ _ _).symm

theorem maskCredentials_written (tidy : Tidy pieces) : maskCredentials (written pieces) =
      written (pieces.map Piece.urlMasked) := by
  induction pieces with
  | nil => rfl
  | cons piece rest induction =>
    rw [written_cons, maskCredentials_piece tidy, induction tidy.tail,
      List.map_cons, written_cons]

theorem noSecret_segment (discreet : segment.Discreet) : NoSecret segment.masked.text := by
  cases segment with
  | bare text => exact discreet
  | credential user password host =>
    have host_part : NoSecret ('@' :: host) := discreet.2.cons (by decide)
    have stars : NoSecret (':' :: hidden) := noSecret_of_absent (by decide)
    have whole := discreet.1.append
      (stars.append host_part (breaks_cons (by decide) (by decide)))
      (breaks_cons (by decide) (by decide))
    rw [← List.append_assoc] at whole
    exact whole

theorem noSecret_authority (discreet : ∀ segment ∈ segments, segment.Discreet) :
    NoSecret (authority (segments.map Segment.masked)) := by
  induction segments with
  | nil => exact noSecret_of_absent List.not_mem_nil
  | cons segment others induction =>
    have first := noSecret_segment (discreet segment List.mem_cons_self)
    have behind := induction fun other member =>
      discreet other (List.mem_cons_of_mem _ member)
    cases others with
    | nil => simpa [authority, Joined.join] using first
    | cons next others =>
      have cut : authority ((segment :: next :: others).map Segment.masked) =
          segment.masked.text ++ ',' :: authority ((next :: others).map Segment.masked) := by
        simp [authority, Joined.join]
      rw [cut]
      exact first.append (behind.cons (by decide))
        (breaks_cons (by decide) (by decide))

theorem IsScheme.no_equality (named : IsScheme scheme) : '=' ∉ scheme :=
  fun member => absurd (named.chars '=' member) (by decide)

theorem noSecret_url (named : IsScheme scheme)
    (discreet : ∀ segment ∈ segments, segment.Discreet) :
    NoSecret (Piece.url scheme (segments.map Segment.masked)).text := by
  have hosts := noSecret_authority discreet
  have behind : NoSecret (separator ++ authority (segments.map Segment.masked)) :=
    ((hosts.cons (by decide)).cons (by decide)).cons (by decide)
  have whole := (noSecret_of_absent named.no_equality).append behind
    (breaks_cons (by decide) (by decide))
  rw [← List.append_assoc] at whole
  exact whole

theorem breaks_of_opens
    (opens : Opens (fun char => isNameLetter char = false ∧ char ≠ '=') text) :
    Breaks text := by
  cases text with
  | nil => exact fun absurd => by cases absurd
  | cons first text =>
    obtain ⟨letter, equality⟩ := opens first rfl
    exact breaks_cons letter equality

theorem breaks_after_plain (tidy : Tidy (.plain text :: rest)) : Breaks (written rest) := by
  cases rest with
  | nil => exact fun absurd => by cases absurd
  | cons next rest =>
    have follows := (List.isChain_cons_cons.mp tidy.follows).1
    have next_valid := tidy.valid next (by simp)
    cases next_valid with
    | plain => exact absurd follows id
    | url named some_segment hosts discreet =>
      rw [written_cons, url_text, List.append_assoc]
      exact breaks_append named.no_equality (breaks_cons (by decide) (by decide))
    | @secret mark name value known inside quiet =>
      have outside : isNameLetter mark = false ∧ mark ≠ '=' := by
        rcases known.mark with rfl | rfl <;> decide
      exact breaks_cons outside.1 outside.2

theorem maskSecrets_piece (tidy : Tidy (piece :: rest))
    (hidden_urls : piece.urlMasked = piece) :
    maskSecrets (piece.text ++ written rest) =
      piece.masked.text ++ maskSecrets (written rest) := by
  have piece_valid := tidy.valid piece List.mem_cons_self
  cases piece_valid with
  | plain nonempty quiet absent => exact maskSecrets_append absent (breaks_after_plain tidy)
  | @url scheme segments named some_segment hosts discreet =>
    have absent := noSecret_url named discreet
    have same : Piece.url scheme (segments.map Segment.masked) =
      .url scheme segments := hidden_urls
    change maskSecrets _ = (Piece.url scheme (segments.map Segment.masked)).text ++ _
    rw [same] at absent ⊢
    exact maskSecrets_append absent (breaks_of_opens fun char first =>
      name_ends_with_authority (opens_after_url tidy char first))
  | @secret mark name value known inside quiet =>
    have found := findSecret_some known inside (opens_after_secret tidy)
    have masked := Substitution.sub_found findSecret_consuming found
    change maskSecrets ((mark :: name ++ '=' :: value) ++ written rest) = _
    rw [List.append_assoc]
    exact masked

theorem maskSecrets_written (tidy : Tidy pieces)
    (hidden_urls : ∀ piece ∈ pieces, piece.urlMasked = piece) :
    maskSecrets (written pieces) = written (pieces.map Piece.masked) := by
  induction pieces with
  | nil => rfl
  | cons piece rest induction =>
    rw [written_cons, maskSecrets_piece tidy (hidden_urls piece (by simp)),
      induction tidy.tail fun other member =>
        hidden_urls other (List.mem_cons_of_mem _ member),
      List.map_cons, written_cons]

/-- SQLAlchemy raises, or renders the text with nothing changed but what the
mask replaces. -/
def Renders (makeUrl : Text → Option Text) (pieces : List Piece) : Prop :=
  ∀ rendered ∈ makeUrl (written pieces), ∃ others, Tidy others ∧ written others = rendered ∧
    others.map Piece.masked = pieces.map Piece.masked

theorem maskUrlPassword_written {makeUrl : Text → Option Text}
    (tidy : Tidy pieces) (renders : Renders makeUrl pieces) :
    maskUrlPassword makeUrl (written pieces) = written (pieces.map Piece.masked) := by
  obtain ⟨others, others_tidy, same_text, same_mask⟩ : ∃ others, Tidy others ∧
        written others = (makeUrl (written pieces)).getD (written pieces) ∧
        others.map Piece.masked = pieces.map Piece.masked := by
    cases rendered : makeUrl (written pieces) with
    | none => exact ⟨pieces, tidy, rfl, rfl⟩
    | some text => exact renders text rendered
  have hidden_tidy := others_tidy.map (fun piece => Piece.Valid.urlMasked) follows_urlMasked
  have hidden_urls : ∀ piece ∈ others.map Piece.urlMasked, piece.urlMasked = piece := by
    intro piece member
    obtain ⟨before, -, rfl⟩ := List.mem_map.mp member
    exact Piece.urlMasked_urlMasked before
  have both_masked : (others.map Piece.urlMasked).map Piece.masked =
      others.map Piece.masked := by
    rw [List.map_map]
    exact List.map_congr_left fun piece _ => masked_urlMasked piece
  calc
    maskUrlPassword makeUrl (written pieces) =
        maskSecrets (maskCredentials (written others)) := by
      rw [same_text]
      rfl
    _ = maskSecrets (written (others.map Piece.urlMasked)) := by
      rw [maskCredentials_written others_tidy]
    _ = written (others.map Piece.masked) := by
      rw [maskSecrets_written hidden_tidy hidden_urls, both_masked]
    _ = written (pieces.map Piece.masked) := by rw [same_mask]

/-- The mask replaces the passwords and the secret values, keeps everything
else, and changes nothing more when it is applied again. -/
theorem url_password_masked (makeUrl : Text → Option Text) (pieces : List Piece)
    (tidy : Tidy pieces) (renders : Renders makeUrl pieces)
    (renders_masked : Renders makeUrl (pieces.map Piece.masked)) :
    maskUrlPassword makeUrl (written pieces) = written (pieces.map Piece.masked) ∧
      maskUrlPassword makeUrl (maskUrlPassword makeUrl (written pieces)) =
        maskUrlPassword makeUrl (written pieces) := by
  have once := maskUrlPassword_written tidy renders
  have masked_tidy := tidy.map (fun piece => Piece.Valid.masked) follows_masked
  have again := maskUrlPassword_written masked_tidy renders_masked
  have twice : (pieces.map Piece.masked).map Piece.masked = pieces.map Piece.masked := by
    rw [List.map_map]
    exact List.map_congr_left fun piece _ => Piece.masked_masked piece
  refine ⟨once, ?_⟩
  rw [once, again, twice]

end

def sampleSentence : List Piece :=
  [.plain "cannot reach ".toList, .url "amqp".toList
      [.credential ['u'] "p@ss".toList "h1".toList, .credential ['u'] "pw2".toList "h2".toList],
    .plain ['/'], .secret '?' "Pwd".toList "x".toList, .plain " again".toList]

def sampleUrl : List Piece :=
  [.url "postgresql+asyncpg".toList [.credential ['u'] "db-secret".toList "h:5432".toList],
    .plain "/app".toList]

def sampleMakeUrl (text : Text) : Option Text :=
  if text = written sampleUrl ∨ text = written (sampleUrl.map Piece.masked) then
    some (written (sampleUrl.map Piece.masked))
  else none

theorem credential_valid {user password host : Text}
    (plain : (Segment.credential user password host).text.all
      (fun char => inAuthority char && char != ',') = true)
    (cut : ':' ∉ user ∧ '@' ∉ host) :
    (Segment.credential user password host).Valid where
  plain char member := by
    have both := Bool.and_eq_true_iff.mp (List.all_eq_true.mp plain char member)
    exact ⟨both.1, bne_iff_ne.mp both.2⟩
  bare front host same := by cases same
  user other_user other_password other_host same := by
    cases same
    exact cut

theorem plain_valid {text : Text} (nonempty : text ≠ [])
    (colon : ':' ∉ text) (equality : '=' ∉ text) : (Piece.plain text).Valid :=
  .plain nonempty (quiet_of_absent colon) (noSecret_of_absent equality)

theorem sampleSentence_tidy : Tidy sampleSentence := by
  constructor
  · have hosts : ∀ segment ∈ [Segment.credential ['u'] "p@ss".toList "h1".toList,
        .credential ['u'] "pw2".toList "h2".toList],
        segment.Valid ∧ segment.Discreet := by
      simp only [List.forall_mem_cons]
      refine ⟨⟨credential_valid (by decide) (by decide), ?_, ?_⟩,
        ⟨credential_valid (by decide) (by decide), ?_, ?_⟩, by simp⟩
      all_goals exact noSecret_of_absent (by decide)
    simp only [sampleSentence, List.forall_mem_cons]
    refine ⟨plain_valid (by decide) (by decide) (by decide),
      .url ⟨by decide, List.all_eq_true.mp (by decide)⟩ (by decide) (fun segment member =>
        (hosts segment member).1) (fun segment member => (hosts segment member).2),
      plain_valid (by decide) (by decide) (by decide),
      .secret ⟨by decide, "pwd".toList, by decide, by decide⟩
        (List.all_eq_true.mp (by decide)) (quiet_of_absent (by decide)),
      plain_valid (by decide) (by decide) (by decide), by simp⟩
  · simp only [sampleSentence, List.isChain_cons_cons, List.isChain_singleton, and_true]
    refine ⟨trivial, ?_, trivial, ?_⟩
    · intro char first
      cases first
      decide
    · intro char first
      cases first
      decide

theorem sampleUrl_tidy : Tidy sampleUrl := by
  constructor
  · have host : (Segment.credential ['u'] "db-secret".toList "h:5432".toList).Valid :=
      credential_valid (by decide) (by decide)
    have discreet : (Segment.credential ['u'] "db-secret".toList "h:5432".toList).Discreet :=
      ⟨noSecret_of_absent (by decide), noSecret_of_absent (by decide)⟩
    simp only [sampleUrl, List.forall_mem_cons]
    exact ⟨.url ⟨by decide, List.all_eq_true.mp (by decide)⟩ (by decide) (by simpa using host)
      (by simpa using discreet),
      plain_valid (by decide) (by decide) (by decide), by simp⟩
  · simp only [sampleUrl, List.isChain_cons_cons, List.isChain_singleton, and_true]
    intro char first
    cases first
    decide

theorem sentence_renders {pieces : List Piece}
    (raises : sampleMakeUrl (written pieces) = none) :
    Renders sampleMakeUrl pieces := by
  intro rendered parsed
  rw [raises] at parsed
  cases parsed

theorem url_renders {pieces : List Piece} (parses : sampleMakeUrl (written pieces) =
      some (written (sampleUrl.map Piece.masked)))
    (same : (sampleUrl.map Piece.masked).map Piece.masked = pieces.map Piece.masked) :
    Renders sampleMakeUrl pieces := by
  intro rendered parsed
  rw [parses] at parsed
  cases parsed
  exact ⟨_, sampleUrl_tidy.map (fun piece => Piece.Valid.masked) follows_masked, rfl, same⟩

theorem samples_masked : maskUrlPassword sampleMakeUrl (written sampleSentence) =
        "cannot reach amqp://u:***@h1,u:***@h2/?Pwd=*** again".toList ∧
      maskUrlPassword sampleMakeUrl (written sampleUrl) =
        "postgresql+asyncpg://u:***@h:5432/app".toList := by
  constructor
  · have masked := url_password_masked sampleMakeUrl sampleSentence
      sampleSentence_tidy (sentence_renders (by decide))
      (sentence_renders (by decide))
    rw [masked.1]
    decide
  · have masked := url_password_masked sampleMakeUrl sampleUrl sampleUrl_tidy
      (url_renders (by decide) (by decide)) (url_renders (by decide) (by decide))
    rw [masked.1]
    decide

/-- The value of a query parameter is hidden, though it is no password of the
URL's authority; a password with a comma is not, and neither is that of a URL
glued to the authority before it. -/
theorem masking_elsewhere : maskUrlPassword (fun _ => none)
        "cannot reach postgresql://u:pw@h/db?password=zzz".toList =
      "cannot reach postgresql://u:***@h/db?password=***".toList ∧
    maskUrlPassword (fun _ => none) "cannot reach amqp://u:p,w@h/".toList =
      "cannot reach amqp://u:p,w@h/".toList ∧
    maskUrlPassword (fun _ => none) "tried amqp://u:pw@h1,amqp://u:pw2@h2".toList =
      "tried amqp://u:***@h1,amqp://u:pw2@h2".toList := by
  decide

end TempestSdk.UrlMask
