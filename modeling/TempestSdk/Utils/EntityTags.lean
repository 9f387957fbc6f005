import TempestSdk.Library.Joined
import TempestSdk.Library.PyStrings

/-!
# Entity tags

`If-None-Match` lists the tags that a client has.  The list is cut at every
comma, and a comma may also stand inside of a tag.
-/

namespace TempestSdk.EntityTags

open PyDecimal (isSpace strip)
open PyStrings

def etagMatches (ifNoneMatch etag : Text) : Bool :=
  let candidate := strip ifNoneMatch
  if candidate = ['*'] then true
  else
    let tags := (candidate.splitOn ',').map fun tag =>
      removePrefix ['W', '/'] (strip tag)
    tags.contains (removePrefix ['W', '/'] etag)

/-- `etagc`: visible characters without the quotation mark, and those beyond
ASCII. -/
def isEtagc (char : Char) : Bool :=
  char.toNat == 0x21 || (0x23 ≤ char.toNat && char.toNat ≤ 0x7E) ||
    (0x80 ≤ char.toNat && char.toNat ≤ 0xFF)

structure EntityTag where
  weak : Bool
  content : Text
  visible : ∀ char ∈ content, isEtagc char = true

def EntityTag.quoted (tag : EntityTag) : Text := '"' :: (tag.content ++ ['"'])

def EntityTag.text (tag : EntityTag) : Text :=
  if tag.weak then 'W' :: '/' :: tag.quoted else tag.quoted

def EntityTag.Matches (tag other : EntityTag) : Prop :=
  tag.content = other.content

structure Ows where
  text : Text
  blank : ∀ char ∈ text, char = ' ' ∨ char = '\t'

structure Element where
  before : Ows
  tag : Option EntityTag
  after : Ows

def Element.core (element : Element) : Text :=
  element.tag.elim [] EntityTag.text

def Element.text (element : Element) : Text :=
  element.before.text ++ element.core ++ element.after.text

inductive IfNoneMatch where
  | any (before after : Ows)
  | tags (elements : List Element)

namespace IfNoneMatch

def text : IfNoneMatch → Text
  | any before after => before.text ++ ['*'] ++ after.text
  | tags elements => Joined.join ',' (elements.map Element.text)

def Lists (value : IfNoneMatch) (tag : EntityTag) : Prop :=
  match value with
  | any _ _ => False
  | tags elements => ∃ element ∈ elements, ∃ member ∈ element.tag,
      member.Matches tag

def Covers (value : IfNoneMatch) (tag : EntityTag) : Prop :=
  match value with
  | any _ _ => True
  | tags elements => (tags elements).Lists tag

end IfNoneMatch

section

variable {tag other : EntityTag} {element : Element} {elements : List Element}
variable {part text : Text}

theorem Ows.spaces (ows : Ows) : ∀ char ∈ ows.text, isSpace char = true := by
  intro char member
  rcases ows.blank char member with rfl | rfl <;> rfl

theorem Ows.plain (ows : Ows) {char : Char} (space : char ≠ ' ')
    (tab : char ≠ '\t') : char ∉ ows.text := by
  intro member
  rcases ows.blank char member with same | same
  · exact space same
  · exact tab same

theorem quote_not_mem (tag : EntityTag) : '"' ∉ tag.content := by
  intro member
  exact absurd (tag.visible _ member) (by decide)

theorem quoted_injective (same : tag.quoted = other.quoted) : tag.content = other.content :=
  List.append_cancel_right (List.cons.inj same).2

theorem strip_quoted (tag : EntityTag) : strip tag.text = tag.text := by
  apply strip_eq_self
  · intro char first
    unfold EntityTag.text at first
    split at first
    · cases first
      rfl
    · cases first
      rfl
  · intro char last
    have quote : tag.text.getLast? = some '"' := by
      unfold EntityTag.text EntityTag.quoted
      split <;> simp [List.getLast?_cons]
    rw [quote] at last
    cases last
    rfl

theorem removePrefix_text (tag : EntityTag) :
    removePrefix ['W', '/'] tag.text = tag.quoted := by
  unfold EntityTag.text
  split
  · rfl
  · rfl

theorem strip_element : strip element.text = strip element.core :=
  strip_append element.before.spaces element.after.spaces

theorem comma_mem (known : element.tag = some tag) :
    ',' ∈ element.text ↔ ',' ∈ tag.content := by
  have before : ',' ∉ element.before.text :=
    element.before.plain (by decide) (by decide)
  have after : ',' ∉ element.after.text :=
    element.after.plain (by decide) (by decide)
  unfold Element.text Element.core EntityTag.text EntityTag.quoted
  rw [known]
  cases weak : tag.weak <;> simp [before, after, weak]

theorem count_quoted (tag : EntityTag) : tag.quoted.count '"' = 2 := by
  have inside := List.count_eq_zero.mpr (quote_not_mem tag)
  simp [EntityTag.quoted, inside]

theorem count_removePrefix_strip (part : Text) :
    (removePrefix ['W', '/'] (strip part)).count '"' ≤ part.count '"' := by
  have kept : (removePrefix ['W', '/'] (strip part)).Sublist (strip part) := by
    unfold removePrefix
    split
    · exact List.drop_sublist _ _
    · exact List.Sublist.refl _
  exact (kept.trans (strip_sublist part)).count_le _

theorem count_part (known : element.tag = some tag) (comma : ',' ∈ tag.content)
    (member : part ∈ element.text.splitOn ',') : part.count '"' ≤ 1 := by
  obtain ⟨front, back, cut, _absent⟩ := List.eq_append_cons_of_mem comma
  have before : '"' ∉ element.before.text :=
    element.before.plain (by decide) (by decide)
  have after : '"' ∉ element.after.text :=
    element.after.plain (by decide) (by decide)
  have quotes := quote_not_mem tag
  rw [cut, List.mem_append, not_or, List.mem_cons, not_or] at quotes
  let opening := element.before.text ++ ((if tag.weak then ['W', '/'] else []) ++ '"' :: front)
  let closing := back ++ '"' :: element.after.text
  have whole : element.text = opening ++ ',' :: closing := by
    unfold Element.text Element.core EntityTag.text EntityTag.quoted
    rw [known]
    cases weak : tag.weak <;> simp [opening, closing, weak, cut]
  have first : opening.count '"' = 1 := by
    cases weak : tag.weak <;>
      simp [opening, weak, List.count_eq_zero.mpr before, List.count_eq_zero.mpr quotes.1]
  have second : closing.count '"' = 1 := by
    simp [closing, List.count_eq_zero.mpr after, List.count_eq_zero.mpr quotes.2.2]
  rw [whole, List.splitOn_append_cons_self] at member
  rcases List.mem_append.mp member with early | late
  · exact ((infix_of_mem_splitOn early).sublist.count_le _).trans first.le
  · exact ((infix_of_mem_splitOn late).sublist.count_le _).trans second.le

theorem splitOn_element (known : element.tag = some tag)
    (plain : ',' ∉ tag.content) : element.text.splitOn ',' = [element.text] :=
  List.splitOn_eq_singleton fun member => plain ((comma_mem known).mp member)

theorem read_element (known : element.tag = some tag) :
    removePrefix ['W', '/'] (strip element.text) = tag.quoted := by
  have core : element.core = tag.text := by
    rw [Element.core, known]
    rfl
  rw [strip_element, core, strip_quoted, removePrefix_text]

theorem read_blank (blank : strip part = []) :
    removePrefix ['W', '/'] (strip part) ≠ tag.quoted := by
  rw [blank]
  exact (List.cons_ne_nil _ _).symm

theorem part_iff : (∃ part ∈ element.text.splitOn ',',
      removePrefix ['W', '/'] (strip part) = tag.quoted) ↔
      ',' ∉ tag.content ∧ ∃ member ∈ element.tag, member.Matches tag := by
  cases known : element.tag with
  | none =>
    have core : element.core = [] := by
      rw [Element.core, known]
      rfl
    have absent : ',' ∉ element.text := by
      have before : ',' ∉ element.before.text :=
        element.before.plain (by decide) (by decide)
      have after : ',' ∉ element.after.text :=
        element.after.plain (by decide) (by decide)
      simp [Element.text, core, before, after]
    rw [List.splitOn_eq_singleton absent]
    constructor
    · rintro ⟨part, member, read⟩
      have blank : strip part = [] := by
        rw [List.mem_singleton.mp member, strip_element, core]
        rfl
      exact (read_blank blank read).elim
    · rintro ⟨_, member, none_there, _⟩
      cases none_there
  | some member =>
    constructor
    · rintro ⟨part, inside, read⟩
      by_cases comma : ',' ∈ member.content
      · have few := count_part known comma inside
        have many := count_removePrefix_strip part
        rw [read, count_quoted] at many
        omega
      · rw [splitOn_element known comma] at inside
        rw [List.mem_singleton.mp inside, read_element known] at read
        have same := quoted_injective read
        exact ⟨same ▸ comma, member, rfl, same⟩
    · rintro ⟨plain, other, same, matching⟩
      cases same
      have quoted : member.quoted = tag.quoted := by
        rw [EntityTag.quoted, EntityTag.quoted, matching]
      have comma : ',' ∉ member.content := by
        rw [matching]
        exact plain
      refine ⟨element.text, ?_, ?_⟩
      · rw [splitOn_element known comma]
        exact List.mem_singleton_self _
      · rw [read_element known, quoted]

theorem quote_of_asterisk (asterisk : '*' ∈ element.text) : '"' ∈ element.text := by
  have before : '*' ∉ element.before.text :=
    element.before.plain (by decide) (by decide)
  have after : '*' ∉ element.after.text :=
    element.after.plain (by decide) (by decide)
  unfold Element.text Element.core at asterisk ⊢
  cases known : element.tag with
  | none => simp [known, before, after] at asterisk
  | some tag =>
    have quote : '"' ∈ tag.text := by
      unfold EntityTag.text EntityTag.quoted
      cases tag.weak <;> simp
    simp [quote]

theorem strip_ne_asterisk : strip (IfNoneMatch.tags elements).text ≠ ['*'] := by
  intro same
  have listed : '*' ∈ (IfNoneMatch.tags elements).text := by
    apply (strip_sublist _).subset
    rw [same]
    exact List.mem_singleton_self _
  rcases mem_intercalate listed with comma | ⟨part, known, inside⟩
  · exact absurd comma (by decide)
  · obtain ⟨element, _member, rfl⟩ := List.mem_map.mp known
    have quote : '"' ∈ (IfNoneMatch.tags elements).text :=
      (infix_of_mem_intercalate known).subset (quote_of_asterisk inside)
    have kept := mem_strip quote rfl
    rw [same] at kept
    exact absurd (List.mem_singleton.mp kept) (by decide)

theorem mem_parts : part ∈ (IfNoneMatch.tags elements).text.splitOn ',' ↔
      (elements = [] ∧ part = []) ∨ ∃ element ∈ elements, part ∈ element.text.splitOn ',' := by
  cases elements with
  | nil => simp [IfNoneMatch.text, Joined.join]
  | cons element elements =>
    rw [IfNoneMatch.text, Joined.splitOn_join (by simp)]
    simp [Joined.pieces]

theorem etagMatches_tags : etagMatches (IfNoneMatch.tags elements).text tag.text = true ↔
      ',' ∉ tag.content ∧ (IfNoneMatch.tags elements).Lists tag := by
  have whole : etagMatches (IfNoneMatch.tags elements).text tag.text = true ↔
      ∃ part ∈ (IfNoneMatch.tags elements).text.splitOn ',',
        removePrefix ['W', '/'] (strip part) = tag.quoted := by
    have stripped := @splitOn_strip ',' rfl (IfNoneMatch.tags elements).text
    have read := congrArg (List.map (removePrefix ['W', '/'])) stripped
    rw [List.map_map, List.map_map] at read
    unfold etagMatches
    rw [if_neg strip_ne_asterisk, List.contains_iff_mem, removePrefix_text]
    change tag.quoted ∈ List.map (removePrefix ['W', '/'] ∘ strip) _ ↔ _
    rw [read]
    exact List.mem_map
  rw [whole]
  constructor
  · rintro ⟨part, inside, read⟩
    rcases (mem_parts).mp inside with ⟨_, rfl⟩ | ⟨element, member, cut⟩
    · exact (read_blank rfl read).elim
    · obtain ⟨plain, listed⟩ := (part_iff).mp ⟨part, cut, read⟩
      exact ⟨plain, element, member, listed⟩
  · rintro ⟨plain, element, member, listed⟩
    obtain ⟨part, cut, read⟩ := (part_iff).mpr ⟨plain, listed⟩
    exact ⟨part, (mem_parts).mpr (.inr ⟨element, member, cut⟩), read⟩

theorem etagMatches_any (before after : Ows) (etag : Text) :
    etagMatches (IfNoneMatch.any before after).text etag = true := by
  have candidate : strip (IfNoneMatch.any before after).text = ['*'] :=
    strip_append before.spaces after.spaces
  unfold etagMatches
  rw [if_pos candidate]

end

/-- The matching is that of the header field unless a tag with a comma is on
the list. -/
theorem etagMatches_iff (value : IfNoneMatch) (tag : EntityTag) :
    (etagMatches value.text tag.text = true ↔ value.Covers tag) ↔
      ¬ (value.Lists tag ∧ ',' ∈ tag.content) := by
  cases value with
  | any before after =>
    rw [etagMatches_any]
    exact iff_of_true (iff_of_true rfl trivial) fun both => both.1
  | tags elements =>
    rw [etagMatches_tags]
    change (_ ↔ (IfNoneMatch.tags elements).Lists tag) ↔ _
    tauto

def noSpace : Ows := ⟨[], by simp⟩

def commaTag : EntityTag :=
  ⟨false, ['a', ',', 'b'], List.all_eq_true.mp (by decide)⟩

theorem listed_tag_not_matched : ∃ (value : IfNoneMatch) (tag : EntityTag), value.Covers tag ∧
      etagMatches value.text tag.text = false := by
  refine ⟨.tags [⟨noSpace, some commaTag, noSpace⟩], commaTag, ?_, by decide⟩
  exact ⟨_, List.mem_singleton_self _, commaTag, rfl, rfl⟩

end TempestSdk.EntityTags
