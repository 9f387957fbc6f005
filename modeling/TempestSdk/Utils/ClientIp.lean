import TempestSdk.Library.IpSpellings

/-!
# The address of a client

A header value is read as one IP address and written in its canonical form, the
scope id of a version 6 address included.
-/

namespace TempestSdk.ClientIp

open PyDecimal (isSpace strip)
open PyStrings (partition)
open IpAddress

/-- An address of `ipaddress`. -/
inductive Address where
  | v4 (address : V4)
  | v6 (address : V6) (scopeId : Option Text)

def splitScopeId (text : Text) : Option (Text × Option Text) :=
  let cut := partition '%' text
  if cut.found = false then some (text, none)
  else if cut.after = [] ∨ '%' ∈ cut.after then none
  else some (cut.before, some cut.after)

def ipAddress (text : Text) : Option Address :=
  match V4.parse text with
  | some address => some (.v4 address)
  | none =>
    if '/' ∈ text then none
    else
      (splitScopeId text).bind fun parts =>
        (V6.parse parts.1).map fun address => .v6 address parts.2

def scopeText (scopeId : Option Text) : Text := scopeId.elim [] ('%' :: ·)

/-- An address of version 6 without its scope id; the end of a mapped one is
dotted. -/
def coreText (address : V6) : Text :=
  match address.ipv4Mapped with
  | some inner => V6.mappedText inner
  | none => address.text

/-- The text that `parse_client_ip` makes of an address. -/
def Address.text : Address → Text
  | v4 address => address.text
  | v6 address scopeId => coreText address ++ scopeText scopeId

def parseClientIp (value : Text) : Option Text :=
  (ipAddress (strip value)).map Address.text

/-- A scope id that can be written behind an address. -/
structure IsScopeId (scopeId : Text) : Prop where
  nonempty : scopeId ≠ []
  no_percent : '%' ∉ scopeId
  no_slash : '/' ∉ scopeId
  ends_visible : ∀ char ∈ scopeId.getLast?, isSpace char = false

inductive Writes : Text → Address → Prop where
  | v4 (address : V4) : Writes address.text (.v4 address)
  | v6 {text : Text} {address : V6} (spells : Spells text address.groups) :
      Writes text (.v6 address none)
  | zoned {text : Text} {address : V6} {scopeId : Text}
      (spells : Spells text address.groups) (given : IsScopeId scopeId) :
      Writes (text ++ '%' :: scopeId) (.v6 address (some scopeId))

def Spelled (value : Text) (address : Address) : Prop :=
  ∃ lead text trail, value = lead ++ text ++ trail ∧ (∀ char ∈ lead, isSpace char = true) ∧
    (∀ char ∈ trail, isSpace char = true) ∧ Writes text address

def Framed (value : Text) : Prop :=
  (∃ rest, strip value = '[' :: rest) ∨
    ∃ (address : V4) (port : Text), strip value = address.text ++ ':' :: port ∧
      ∀ char ∈ port, '0' ≤ char ∧ char ≤ '9'

def isPlain (char : Char) : Bool :=
  char == ':' || char == '.' || ('0' ≤ char && char ≤ '9') || ('a' ≤ char && char ≤ 'f')

def Canonical (value text : Text) : Prop :=
  ∃ core scopeId, text = core ++ scopeText scopeId ∧ core.all isPlain = true ∧
    ∀ identifier ∈ scopeId, ('%' :: identifier) <:+ strip value

/-- What `parse_client_ip` promises of its result. -/
def Settled (value : Text) : Option Text → Prop
  | none => ¬ ∃ address, Spelled value address
  | some text => Canonical value text ∧ parseClientIp text = some text ∧
      ∀ address, Spelled value address → ∀ other, Spelled other address →
        parseClientIp other = some text

section

variable {text value : Text} {address : Address}
variable {char : Char}

theorem v4_parse_none (member : char ∈ text) (no_dot : char ≠ '.')
    (no_digit : ∀ value < 10, Numerals.digitValue char ≠ some value) :
    V4.parse text = none := by
  cases read : V4.parse text with
  | none => rfl
  | some address =>
    rcases V4.chars_of_parse read member with dot | ⟨value, small, known⟩
    · exact (no_dot dot).elim
    · exact (no_digit value small known).elim

theorem v4_parse_colon (member : ':' ∈ text) : V4.parse text = none :=
  v4_parse_none member (by decide) (by decide)

def Foreign (char : Char) : Prop :=
  char ≠ ':' ∧ char ≠ '.' ∧ Numerals.digitValue char = none

theorem spells_plain {numbers : List Nat} (spells : Spells text numbers)
    (foreign : Foreign char) : char ∉ text := by
  intro member
  rcases spells.chars member with colon | dot | ⟨value, _, known⟩
  · exact foreign.1 colon
  · exact foreign.2.1 dot
  · rw [foreign.2.2] at known
    cases known

theorem v4_plain (address : V4) (foreign : Foreign char) : char ∉ address.text := by
  intro member
  rcases V4.chars_of_parse address.parse_text member with dot | ⟨value, _, known⟩
  · exact foreign.2.1 dot
  · rw [foreign.2.2] at known
    cases known

theorem ipAddress_of_writes (writes : Writes text address) : ipAddress text = some address := by
  unfold ipAddress
  cases writes with
  | v4 address => rw [address.parse_text]
  | v6 spells =>
    have no_slash : '/' ∉ text := spells_plain spells ⟨by decide, by decide, rfl⟩
    have no_percent : '%' ∉ text :=
      spells_plain spells ⟨by decide, by decide, rfl⟩
    rw [v4_parse_colon spells.colon_mem]
    dsimp only
    rw [if_neg no_slash, splitScopeId, PyStrings.partition_absent no_percent,
      if_pos rfl, Option.bind_some, V6.parse_of_spells spells]
    rfl
  | @zoned front address scopeId spells given =>
    have colon : ':' ∈ front ++ '%' :: scopeId :=
      List.mem_append_left _ spells.colon_mem
    have no_slash : '/' ∉ front ++ '%' :: scopeId := by
      have front_plain : '/' ∉ front :=
        spells_plain spells ⟨by decide, by decide, rfl⟩
      simp [front_plain, given.no_slash]
    have no_percent : '%' ∉ front :=
      spells_plain spells ⟨by decide, by decide, rfl⟩
    have split : splitScopeId (front ++ '%' :: scopeId) = some (front, some scopeId) := by
      unfold splitScopeId
      rw [PyStrings.partition_cut no_percent]
      simp [given.nonempty, given.no_percent]
    rw [v4_parse_colon colon]
    dsimp only
    rw [if_neg no_slash, split, Option.bind_some, V6.parse_of_spells spells]
    rfl

theorem foreign_of_space (space : isSpace char = true) : Foreign char := by
  refine ⟨?_, ?_, ?_⟩
  · rintro rfl
    cases space
  · rintro rfl
    cases space
  · unfold isSpace at space
    unfold Numerals.digitValue
    simp only [Bool.or_eq_true, Bool.and_eq_true, decide_eq_true_eq,
      List.mem_cons, List.not_mem_nil, or_false] at space
    rw [if_neg (by omega), if_neg (by omega), if_neg (by omega)]

theorem visible {plain : Text} (absent : ∀ char, Foreign char → char ∉ plain)
    (member : char ∈ plain) : isSpace char = false := by
  cases space : isSpace char with
  | false => rfl
  | true => exact (absent char (foreign_of_space space) member).elim

theorem strip_plain {plain : Text}
    (absent : ∀ char, Foreign char → char ∉ plain) : strip plain = plain := by
  apply PyStrings.strip_eq_self
  · intro char first
    exact visible absent (List.mem_of_mem_head? first)
  · intro char last
    exact visible absent (List.mem_of_getLast? last)

theorem strip_of_writes (writes : Writes text address) : strip text = text := by
  cases writes with
  | v4 address => exact strip_plain fun char foreign => v4_plain address foreign
  | v6 spells => exact strip_plain fun char foreign => spells_plain spells foreign
  | @zoned front address scopeId spells given =>
    apply PyStrings.strip_eq_self
    · intro char first
      apply visible fun char foreign => spells_plain spells foreign
      cases front with
      | nil => exact (List.not_mem_nil spells.colon_mem).elim
      | cons head front =>
        cases first
        exact List.mem_cons_self
    · intro char last
      apply given.ends_visible char
      have nonempty := given.nonempty
      rw [List.getLast?_append, List.getLast?_cons_of_ne_nil nonempty] at last
      simpa [List.getLast?_eq_some_getLast nonempty] using last

theorem parse_of_spelled (spelled : Spelled value address) :
    parseClientIp value = some address.text := by
  obtain ⟨lead, text, trail, rfl, front, back, writes⟩ := spelled
  unfold parseClientIp
  rw [PyStrings.strip_append front back, strip_of_writes writes, ipAddress_of_writes writes]
  rfl

theorem spelled_of_writes (writes : Writes text address) : Spelled text address :=
  ⟨[], text, [], by simp, by simp, by simp, writes⟩

def Read (text : Text) : Address → Prop
  | .v4 _ => True
  | .v6 _ scopeId => ∀ identifier ∈ scopeId,
      IsScopeId identifier ∧ ('%' :: identifier) <:+ text

theorem read_of_ipAddress (ends : ∀ char ∈ text.getLast?, isSpace char = false)
    (read : ipAddress text = some address) : Read text address := by
  unfold ipAddress at read
  split at read
  case h_1 =>
    cases read
    trivial
  case h_2 =>
    split at read
    case isTrue => cases read
    case isFalse no_slash =>
      obtain ⟨parts, split, rest⟩ := Option.bind_eq_some_iff.mp read
      obtain ⟨inner, _, rfl⟩ := Option.map_eq_some_iff.mp rest
      unfold splitScopeId at split
      dsimp only at split
      split at split
      case isTrue =>
        cases split
        intro identifier absent
        cases absent
      case isFalse found =>
        split at split
        case isTrue => cases split
        case isFalse well =>
          cases split
          intro identifier same
          cases same
          rw [not_or] at well
          rw [Bool.not_eq_false] at found
          obtain ⟨whole, _⟩ := PyStrings.partition_found found
          have suffix : ('%' :: (partition '%' text).after) <:+ text :=
            ⟨(partition '%' text).before, whole.symm⟩
          refine ⟨⟨well.1, well.2, ?_, ?_⟩, suffix⟩
          · intro slash
            exact no_slash (suffix.subset (List.mem_cons_of_mem _ slash))
          · intro char last
            apply ends char
            rw [whole, List.getLast?_append, List.getLast?_cons_of_ne_nil well.1]
            simp [Option.mem_def.mp last]

theorem spells_core (address : V6) : Spells (coreText address) address.groups := by
  unfold coreText
  cases mapped : address.ipv4Mapped with
  | none => exact address.spells_text
  | some inner => exact V6.spells_mapped mapped

theorem writes_text (read : Read value address) : Writes address.text address := by
  cases address with
  | v4 address => exact .v4 address
  | v6 address scopeId =>
    have spelled := spells_core address
    cases scopeId with
    | none =>
      rw [Address.text, scopeText, Option.elim_none, List.append_nil]
      exact .v6 spelled
    | some identifier => exact .zoned spelled (read identifier rfl).1

theorem plain_digit : ∀ value < 16, isPlain (Numerals.digit value) = true := by
  decide

theorem plain_v4 (address : V4) : address.text.all isPlain = true := by
  apply List.all_eq_true.mpr
  intro char member
  rcases V4.chars_of_text member with rfl | ⟨value, small, rfl⟩
  · rfl
  · exact plain_digit value (by omega)

theorem plain_core (address : V6) : (coreText address).all isPlain = true := by
  unfold coreText
  cases mapped : address.ipv4Mapped with
  | none =>
    apply List.all_eq_true.mpr
    intro char member
    rcases V6.chars_of_text member with rfl | ⟨value, small, rfl⟩
    · rfl
    · exact plain_digit value small
  | some inner =>
    dsimp only
    rw [V6.mappedText, List.all_append, plain_v4]
    rfl

theorem canonical_text (read : Read (strip value) address) : Canonical value address.text := by
  cases address with
  | v4 address =>
    exact ⟨address.text, none, (List.append_nil _).symm, plain_v4 address,
      fun _ absent => by cases absent⟩
  | v6 address scopeId =>
    exact ⟨coreText address, scopeId, rfl, plain_core address,
      fun identifier known => (read identifier known).2⟩

theorem parse_framed (framed : Framed value) : parseClientIp value = none := by
  unfold parseClientIp ipAddress
  rcases framed with ⟨rest, whole⟩ | ⟨address, port, whole, digits⟩
  · have v4_none : V4.parse (strip value) = none := by
      apply @v4_parse_none _ '['
      · rw [whole]
        exact List.mem_cons_self
      · decide
      · decide
    rw [v4_none]
    dsimp only
    split
    case isTrue => rfl
    case isFalse =>
      have v6_none : ∀ more, V6.parse ('[' :: more) = none :=
        V6.parse_eq_none rfl (by decide)
      have parts : (splitScopeId (strip value)).bind (fun parts =>
          (V6.parse parts.1).map fun address => Address.v6 address parts.2) = none := by
        rw [whole]
        unfold splitScopeId
        dsimp only
        split
        case isTrue => rw [Option.bind_some, v6_none, Option.map_none]
        case isFalse =>
          split
          case isTrue => rfl
          case isFalse =>
            have before : (partition '%' ('[' :: rest)).before =
                '[' :: rest.takeWhile fun char => char ≠ '%' := rfl
            rw [Option.bind_some, before, v6_none, Option.map_none]
      rw [parts]
      rfl
  · have colon : ':' ∈ strip value := by
      rw [whole]
      simp
    have port_plain : ∀ char, ¬ ('0' ≤ char ∧ char ≤ '9') → char ∉ port :=
      fun char other member => other (digits char member)
    have no_percent : '%' ∉ strip value := by
      have front : '%' ∉ address.text :=
        v4_plain address ⟨by decide, by decide, rfl⟩
      rw [whole]
      simp [front, port_plain '%' (by decide)]
    rw [v4_parse_colon colon]
    dsimp only
    split
    case isTrue => rfl
    case isFalse =>
      have two : V6.parse (strip value) = none := by
        have front : ':' ∉ address.text := by
          intro member
          rcases V4.chars_of_parse address.parse_text member with dot | ⟨value, _, known⟩
          · exact absurd dot (by decide)
          · cases known
        unfold V6.parse
        rw [whole, List.splitOn_append_cons_self_of_not_mem front,
          List.splitOn_eq_singleton (port_plain ':' (by decide))]
        rfl
      rw [splitScopeId, PyStrings.partition_absent no_percent, if_pos rfl,
        Option.bind_some, two]
      rfl

end

/-- What `parse_client_ip` makes of a value, which has neither brackets nor a
port if it makes something of it. -/
theorem parseClientIp_settled (value : Text) : Settled value (parseClientIp value) ∧
      (Framed value → parseClientIp value = none) := by
  refine ⟨?_, parse_framed⟩
  cases parsed : parseClientIp value with
  | none =>
    rintro ⟨address, spelled⟩
    rw [parse_of_spelled spelled] at parsed
    cases parsed
  | some text =>
    obtain ⟨address, found, rfl⟩ := Option.map_eq_some_iff.mp parsed
    have read := read_of_ipAddress (PyStrings.last_strip value) found
    refine ⟨canonical_text read, parse_of_spelled (spelled_of_writes (writes_text read)), ?_⟩
    intro other spelled another other_spelled
    have same := parse_of_spelled spelled
    rw [parsed] at same
    rw [parse_of_spelled other_spelled, Option.some.inj same]

theorem scope_id_kept :
    ∃ value text, parseClientIp value = some text ∧ text.all isPlain = false :=
  ⟨['f', 'e', '8', '0', ':', ':', '1', '%', 'e', 't', 'h', '0'],
    ['f', 'e', '8', '0', ':', ':', '1', '%', 'e', 't', 'h', '0'],
    by decide, by decide⟩

end TempestSdk.ClientIp
