import TempestSdk.Library.Joined
import TempestSdk.Library.PyStrings

/-!
# Texts of IP addresses

Version 4 has four decimal octets, version 6 eight hexadecimal groups, of which
one row of zeros may be left out and the last two may be written like an
address of version 4.  Every spelling of an address is read as the address, and
one of them is the canonical one.
-/

namespace IpAddress

open Numerals

abbrev Text := List Char

structure V4 where
  octets : List Nat
  four : octets.length = 4
  small : ∀ octet ∈ octets, octet < 256
deriving DecidableEq

def readOctet (text : Text) : Option Nat :=
  if text = [] ∨ 3 < text.length ∨ (text ≠ ['0'] ∧ text.head? = some '0') then
    none
  else (read 10 text).filter fun octet => octet < 256

def V4.ofOctets (octets : List Nat) : Option V4 :=
  if given : octets.length = 4 ∧ ∀ octet ∈ octets, octet < 256 then
    some ⟨octets, given.1, given.2⟩
  else none

def V4.parse (text : Text) : Option V4 :=
  ((text.splitOn '.').mapM readOctet).bind V4.ofOctets

def V4.text (address : V4) : Text :=
  Joined.join '.' (address.octets.map natural)

def V4.groups (address : V4) : List Nat :=
  match address.octets with
  | [first, second, third, fourth] => [256 * first + second, 256 * third + fourth]
  | _ => []

structure V6 where
  groups : List Nat
  eight : groups.length = 8
  small : ∀ group ∈ groups, group < 65536
deriving DecidableEq

/-- `%x`. -/
def hexadecimal (number : Nat) : Text :=
  fixed 16 (Nat.log 16 number + 1) number

def readGroup (text : Text) : Option Nat :=
  if text = [] ∨ 4 < text.length then none else read 16 text

/-- The parts between colons, with the groups of an address of version 4 in
place of one at the end. -/
def expand (parts : List Text) : Option (List Text) :=
  if '.' ∈ parts.getLastD [] then
    (V4.parse (parts.getLastD [])).map fun address =>
      parts.dropLast ++ address.groups.map hexadecimal
  else some parts

/-- The parts in front of the row that was left out: when the first one is
empty, there is no other. -/
def frontParts (first : Text) (inner : List Text) : Option (List Text) :=
  if first = [] then if inner = [] then some [] else none
  else some (first :: inner)

def backParts (inner : List Text) (last : Text) : Option (List Text) :=
  if last = [] then if inner = [] then some [] else none
  else some (inner ++ [last])

def fill (front back : List Text) : Option (List Nat) :=
  if front.length + back.length < 8 then
    (front.mapM readGroup).bind fun high =>
      (back.mapM readGroup).map fun low =>
        high ++ List.replicate (8 - (front.length + back.length)) 0 ++ low
  else none

/-- The groups of the parts; an empty part inside is where zeros were left
out. -/
def readParts (parts : List Text) : Option (List Nat) :=
  if 9 < parts.length then none
  else
    let first := parts.headD []
    let last := parts.getLastD []
    match parts.tail.dropLast.splitOn [] with
    | [_] => if parts.length = 8 then parts.mapM readGroup else none
    | [before, after] =>
      (frontParts first before).bind fun front =>
        (backParts after last).bind fun back => fill front back
    | _ => none

def V6.ofGroups (groups : List Nat) : Option V6 :=
  if given : groups.length = 8 ∧ ∀ group ∈ groups, group < 65536 then
    some ⟨groups, given.1, given.2⟩
  else none

def V6.parse (text : Text) : Option V6 :=
  let parts := text.splitOn ':'
  if parts.length < 3 then none
  else ((expand parts).bind readParts).bind V6.ofGroups

/-- The longest row of zeros so far, and the row that is going on. -/
structure Rows where
  bestStart : Nat
  bestLength : Nat
  start : Nat
  length : Nat

def Rows.next (rows : Rows) (index group : Nat) : Rows :=
  if group = 0 then
    let start := if rows.length = 0 then index else rows.start
    let length := rows.length + 1
    if rows.bestLength < length then ⟨start, length, start, length⟩
    else { rows with start := start, length := length }
  else { rows with length := 0 }

def rowsFrom (rows : Rows) (index : Nat) : List Nat → Rows
  | [] => rows
  | group :: groups => rowsFrom (rows.next index group) (index + 1) groups

def longestRow (groups : List Nat) : Rows := rowsFrom ⟨0, 0, 0, 0⟩ 0 groups

def compress (groups : List Nat) : List Text :=
  let rows := longestRow groups
  let finish := rows.bestStart + rows.bestLength
  let parts := groups.map hexadecimal
  if 1 < rows.bestLength then
    (if rows.bestStart = 0 then [[]] else []) ++
      (parts.take rows.bestStart ++ [[]] ++ parts.drop finish) ++
      (if finish = groups.length then [[]] else [])
  else parts

def V6.text (address : V6) : Text := Joined.join ':' (compress address.groups)

/-- The address of version 4 in the last two groups, behind `ffff`. -/
def V6.ipv4Mapped (address : V6) : Option V4 :=
  match address.groups with
  | [0, 0, 0, 0, 0, 0xffff, high, low] =>
    V4.ofOctets [high / 256, high % 256, low / 256, low % 256]
  | _ => none

section

variable {separator : Char} {parts : List Text} {text : Text}

theorem splitOn_join (plain : ∀ part ∈ parts, separator ∉ part) (nonempty : parts ≠ []) :
    (Joined.join separator parts).splitOn separator = parts :=
  List.splitOn_intercalate separator plain nonempty

theorem mapM_read {Value : Type} {read : Text → Option Value}
    {write : Value → Text} {values : List Value}
    (back : ∀ value ∈ values, read (write value) = some value) :
    (values.map write).mapM read = some values := by
  induction values with
  | nil => rfl
  | cons value values induction =>
    have first := back value List.mem_cons_self
    have rest := induction fun other member =>
      back other (List.mem_cons_of_mem _ member)
    simp [first, rest]

theorem read_of_mapM {Value : Type} {read : Text → Option Value}
    {values : List Value} (done : parts.mapM read = some values) :
    ∀ part ∈ parts, (read part).isSome = true := by
  induction parts generalizing values with
  | nil => exact fun part member => by cases member
  | cons part parts induction =>
    simp only [List.mapM_cons, Option.bind_eq_bind, Option.bind_eq_some_iff] at done
    obtain ⟨value, first, others, rest, _⟩ := done
    intro other member
    rcases List.mem_cons.mp member with rfl | later
    · rw [first]
      rfl
    · exact induction rest other later

theorem exists_part {char : Char} (member : char ∈ text) (other : char ≠ separator) :
    ∃ part ∈ text.splitOn separator, char ∈ part := by
  have whole : [separator].intercalate (text.splitOn separator) = text :=
    List.intercalate_splitOn separator
  rw [← whole] at member
  exact (PyStrings.mem_intercalate member).resolve_left other

end

theorem readOctet_natural : ∀ octet < 256, readOctet (natural octet) = some octet := by
  decide +kernel

theorem digits_of_read {base : Nat} {text : Text} {number start : Nat}
    (read : text.foldlM (push base) start = some number) :
    ∀ char ∈ text, ∃ value < base, digitValue char = some value := by
  induction text generalizing start with
  | nil => exact fun char member => by cases member
  | cons first text induction =>
    simp only [List.foldlM_cons, Option.bind_eq_bind, Option.bind_eq_some_iff] at read
    obtain ⟨pushed, push_first, rest⟩ := read
    intro char member
    rcases List.mem_cons.mp member with rfl | later
    · unfold push at push_first
      rw [Option.bind_eq_some_iff] at push_first
      obtain ⟨value, known, small⟩ := push_first
      split at small
      case isTrue bound => exact ⟨value, bound, known⟩
      case isFalse => cases small
    · exact induction rest char later

theorem readOctet_digits {text : Text} (read : (readOctet text).isSome = true) :
    ∀ char ∈ text, ∃ value < 10, digitValue char = some value := by
  obtain ⟨octet, some_octet⟩ := Option.isSome_iff_exists.mp read
  unfold readOctet at some_octet
  split at some_octet
  case isTrue => cases some_octet
  case isFalse =>
    obtain ⟨number, _⟩ := Option.filter_eq_some_iff.mp some_octet
    exact digits_of_read number

namespace V4

variable {address : V4} {text : Text}

theorem natural_plain {number : Nat} {char : Char}
    (other : ∀ value < 10, digit value ≠ char) : char ∉ natural number := by
  intro member
  obtain ⟨value, small, same⟩ := mem_fixed (by decide) member
  exact other value small same.symm

theorem octets_ne_nil (address : V4) : address.octets ≠ [] := by
  intro empty
  have four := address.four
  rw [empty] at four
  cases four

theorem ofOctets_octets (address : V4) : ofOctets address.octets = some address := by
  unfold ofOctets
  rw [dif_pos ⟨address.four, address.small⟩]

theorem parse_text (address : V4) : parse address.text = some address := by
  have plain : ∀ part ∈ address.octets.map natural, '.' ∉ part := by
    intro part member
    obtain ⟨octet, _, rfl⟩ := List.mem_map.mp member
    exact natural_plain (by decide)
  have nonempty : address.octets.map natural ≠ [] := by
    simpa using octets_ne_nil address
  unfold parse V4.text
  rw [splitOn_join plain nonempty, mapM_read fun octet member =>
      readOctet_natural octet (address.small octet member)]
  exact ofOctets_octets address

theorem chars_of_parse (read : parse text = some address) {char : Char} (member : char ∈ text) :
    char = '.' ∨ ∃ value < 10, digitValue char = some value := by
  by_cases dot : char = '.'
  · exact .inl dot
  · right
    obtain ⟨part, known, inside⟩ := exists_part member dot
    unfold parse at read
    obtain ⟨octets, done, _⟩ := Option.bind_eq_some_iff.mp read
    exact readOctet_digits (read_of_mapM done part known) char inside

theorem dot_mem (address : V4) : '.' ∈ address.text := by
  obtain ⟨octets, four, small⟩ := address
  match octets, four with
  | [first, second, third, fourth], _ => simp [V4.text, Joined.join, List.intercalate]

theorem groups_small (address : V4) : ∀ group ∈ address.groups, group < 65536 := by
  obtain ⟨octets, four, small⟩ := address
  match octets, four, small with
  | [first, second, third, fourth], _, small =>
    have bounds : first < 256 ∧ second < 256 ∧ third < 256 ∧ fourth < 256 := by
      simpa using small
    intro group member
    simp only [V4.groups, List.mem_cons, List.not_mem_nil, or_false] at member
    omega

theorem groups_two (address : V4) : address.groups.length = 2 := by
  obtain ⟨octets, four, small⟩ := address
  match octets, four with
  | [first, second, third, fourth], _ => rfl

end V4

end IpAddress
