import TempestSdk.Library.PyDecimal

/-!
# Strings of Python

`partition`, `rpartition` and `removeprefix`, and what `strip` leaves of a text
and of its parts when it was split.
-/

namespace PyStrings

open PyDecimal (isSpace strip)

abbrev Text := List Char

/-- A text that was cut at a separator, if there was one. -/
structure Cut where
  before : Text
  found : Bool
  after : Text
deriving DecidableEq

/-- `text.partition(separator)`. -/
def partition (separator : Char) (text : Text) : Cut where
  before := text.takeWhile fun char => char ≠ separator
  found := separator ∈ text
  after := (text.dropWhile fun char => char ≠ separator).drop 1

/-- `text.rpartition(separator)`. -/
def rpartition (separator : Char) (text : Text) : Cut where
  before := (text.rdropWhile fun char => char ≠ separator).dropLast
  found := separator ∈ text
  after := text.rtakeWhile fun char => char ≠ separator

/-- `text.removeprefix(front)`. -/
def removePrefix (front text : Text) : Text :=
  if front.isPrefixOf text then text.drop front.length else text

section

variable {lead core trail text : Text} {separator char : Char}

theorem rdropWhile_append (spaces : ∀ char ∈ trail, isSpace char = true) :
    (text ++ trail).rdropWhile isSpace = text.rdropWhile isSpace := by
  unfold List.rdropWhile
  rw [List.reverse_append, List.dropWhile_append_of_pos]
  intro char member
  exact spaces char (List.mem_reverse.mp member)

theorem strip_append (front : ∀ char ∈ lead, isSpace char = true)
    (back : ∀ char ∈ trail, isSpace char = true) :
    strip (lead ++ core ++ trail) = strip core := by
  unfold strip
  rw [List.append_assoc, List.dropWhile_append_of_pos front, List.dropWhile_append]
  split
  case isTrue blank =>
    have nothing : core.dropWhile isSpace = [] := List.isEmpty_iff.mp blank
    have none_left : trail.dropWhile isSpace = [] :=
      List.dropWhile_eq_nil_iff.mpr back
    rw [nothing, none_left]
  case isFalse => exact rdropWhile_append back

theorem exists_strip (text : Text) : ∃ lead trail, (∀ char ∈ lead, isSpace char = true) ∧
      (∀ char ∈ trail, isSpace char = true) ∧
      text = lead ++ strip text ++ trail := by
  refine ⟨text.takeWhile isSpace, (text.dropWhile isSpace).rtakeWhile isSpace, ?_, ?_, ?_⟩
  · intro char member
    exact List.mem_takeWhile_imp member
  · intro char member
    exact List.mem_rtakeWhile_imp member
  · rw [strip, List.append_assoc, List.rdropWhile_append_rtakeWhile,
      List.takeWhile_append_dropWhile]

theorem strip_eq_self (first : ∀ char ∈ text.head?, isSpace char = false)
    (last : ∀ char ∈ text.getLast?, isSpace char = false) :
    strip text = text := by
  have front : text.dropWhile isSpace = text := by
    cases text with
    | nil => rfl
    | cons char rest =>
      have kept := first char rfl
      exact List.dropWhile_cons_of_neg (by simp [kept])
  rw [strip, front]
  apply List.rdropWhile_eq_self_iff.mpr
  intro nonempty
  have kept := last _ (List.getLast?_eq_some_getLast nonempty)
  simp [kept]

theorem last_strip (text : Text) : ∀ char ∈ (strip text).getLast?, isSpace char = false := by
  intro char last
  have nonempty : strip text ≠ [] := by
    intro empty
    rw [empty] at last
    cases last
  have kept := List.rdropWhile_last_not isSpace (text.dropWhile isSpace) nonempty
  have same : (strip text).getLast? = some ((strip text).getLast nonempty) :=
    List.getLast?_eq_some_getLast nonempty
  rw [same] at last
  rw [← Option.some.inj last]
  exact Bool.eq_false_iff.mpr kept

theorem mem_strip (member : char ∈ text) (visible : isSpace char = false) :
    char ∈ strip text := by
  obtain ⟨lead, trail, front, back, whole⟩ := exists_strip text
  rw [whole] at member
  rcases List.mem_append.mp member with inner | after
  · rcases List.mem_append.mp inner with before | inside
    · rw [front char before] at visible
      cases visible
    · exact inside
  · rw [back char after] at visible
    cases visible

theorem strip_sublist (text : Text) : (strip text).Sublist text :=
  (List.rdropWhile_prefix isSpace _).sublist.trans (List.dropWhile_sublist isSpace)

theorem strip_dropWhile (text : Text) : strip (text.dropWhile isSpace) = strip text := by
  have spaces : ∀ char ∈ text.takeWhile isSpace, isSpace char = true :=
    fun _ member => List.mem_takeWhile_imp member
  have same := @strip_append _ (text.dropWhile isSpace) [] spaces (by simp)
  rw [List.append_nil, List.takeWhile_append_dropWhile] at same
  exact same.symm

theorem strip_rdropWhile (text : Text) : strip (text.rdropWhile isSpace) = strip text := by
  have spaces : ∀ char ∈ text.rtakeWhile isSpace, isSpace char = true :=
    fun _ member => List.mem_rtakeWhile_imp member
  have same := @strip_append [] (text.rdropWhile isSpace) _ (by simp) spaces
  rw [List.nil_append, List.rdropWhile_append_rtakeWhile] at same
  exact same.symm

theorem rdropWhile_around (visible : isSpace char = false) (front back : Text) :
    (front ++ char :: back).rdropWhile isSpace = front ++ char :: back.rdropWhile isSpace := by
  unfold List.rdropWhile
  rw [List.reverse_append, List.reverse_cons, List.append_assoc, List.dropWhile_append]
  split
  case isTrue blank =>
    have nothing := List.isEmpty_iff.mp blank
    rw [nothing, List.singleton_append, List.dropWhile_cons_of_neg (by simp [visible])]
    simp
  case isFalse => simp

theorem strip_around (visible : isSpace char = false) (front back : Text) :
    strip (front ++ char :: back) =
      front.dropWhile isSpace ++ char :: back.rdropWhile isSpace := by
  unfold strip
  rw [List.dropWhile_append]
  split
  case isTrue blank =>
    have nothing := List.isEmpty_iff.mp blank
    rw [nothing, List.dropWhile_cons_of_neg (by simp [visible])]
    exact rdropWhile_around visible [] back
  case isFalse => exact rdropWhile_around visible _ back

theorem partition_cut (absent : separator ∉ lead) :
    partition separator (lead ++ separator :: trail) = ⟨lead, true, trail⟩ := by
  have others : ∀ char ∈ lead, decide (char ≠ separator) = true := by
    intro char member
    apply decide_eq_true
    rintro rfl
    exact absent member
  unfold partition
  rw [List.takeWhile_append_of_pos others, List.dropWhile_append_of_pos others]
  simp

theorem cut_unique {other_lead other_trail : Text} (absent : separator ∉ lead)
    (other_absent : separator ∉ other_lead)
    (same : lead ++ separator :: trail = other_lead ++ separator :: other_trail) :
    lead = other_lead ∧ trail = other_trail := by
  have cut : partition separator (lead ++ separator :: trail) =
      ⟨lead, true, trail⟩ := partition_cut absent
  have other_cut : partition separator (other_lead ++ separator :: other_trail) =
      ⟨other_lead, true, other_trail⟩ := partition_cut other_absent
  rw [same, other_cut, Cut.mk.injEq] at cut
  exact ⟨cut.1.symm, cut.2.2.symm⟩

theorem last_cut_unique {other_lead other_trail : Text}
    (absent : separator ∉ trail) (other_absent : separator ∉ other_trail)
    (same : lead ++ separator :: trail = other_lead ++ separator :: other_trail) :
    lead = other_lead ∧ trail = other_trail := by
  have turned := congrArg List.reverse same
  simp only [List.reverse_append, List.reverse_cons, List.append_assoc,
    List.singleton_append] at turned
  obtain ⟨trails, leads⟩ := cut_unique (by simpa using absent)
    (by simpa using other_absent) turned
  exact ⟨List.reverse_inj.mp leads, List.reverse_inj.mp trails⟩

theorem partition_found (found : (partition separator text).found = true) :
    text = (partition separator text).before ++ separator :: (partition separator text).after ∧
      separator ∉ (partition separator text).before := by
  have member : separator ∈ text := of_decide_eq_true found
  obtain ⟨lead, trail, rfl, absent⟩ := List.eq_append_cons_of_mem member
  rw [partition_cut absent]
  exact ⟨rfl, absent⟩

theorem partition_absent (absent : separator ∉ text) :
    partition separator text = ⟨text, false, []⟩ := by
  have others : ∀ char ∈ text, decide (char ≠ separator) = true := by
    intro char member
    apply decide_eq_true
    rintro rfl
    exact absent member
  unfold partition
  rw [List.takeWhile_eq_self_iff.mpr others, List.dropWhile_eq_nil_iff.mpr others]
  simp [absent]

section

variable (visible : isSpace separator = false)

include visible

theorem splitOn_lead (spaces : ∀ char ∈ lead, isSpace char = true) :
    ((lead ++ text).splitOn separator).map strip = (text.splitOn separator).map strip := by
  induction lead with
  | nil => rfl
  | cons char lead induction =>
    have space : isSpace char = true := spaces char List.mem_cons_self
    have other : (char == separator) = false := by
      apply beq_eq_false_iff_ne.mpr
      rintro rfl
      rw [space] at visible
      cases visible
    rw [← induction fun other member =>
      spaces other (List.mem_cons_of_mem _ member)]
    rw [List.cons_append, List.splitOn_cons_eq_if_modifyHead, other]
    cases parts : (lead ++ text).splitOn separator with
    | nil => rfl
    | cons first parts =>
      have single : ∀ other ∈ [char], isSpace other = true := by
        simpa using space
      have same : strip (char :: first) = strip first := by
        have stripped := @strip_append [char] first [] single (by simp)
        simpa using stripped
      simp [same]

theorem splitOn_trail (spaces : ∀ char ∈ trail, isSpace char = true) :
    ((text ++ trail).splitOn separator).map strip = (text.splitOn separator).map strip := by
  have plain : separator ∉ trail := by
    intro member
    rw [spaces separator member] at visible
    cases visible
  have last_part : ∀ part : Text, separator ∉ part →
      ((part ++ trail).splitOn separator).map strip = (part.splitOn separator).map strip := by
    intro part absent
    rw [List.splitOn_eq_singleton absent, List.splitOn_eq_singleton (by simp [absent, plain])]
    have same := @strip_append [] part trail (by simp) spaces
    simpa using same
  by_cases member : separator ∈ text
  · obtain ⟨back, front, whole, absent⟩ :=
      List.eq_append_cons_of_mem (List.mem_reverse.mpr member)
    have cut : text = front.reverse ++ separator :: back.reverse := by
      have turned := congrArg List.reverse whole
      simpa using turned
    rw [cut, List.append_assoc, List.cons_append,
      List.splitOn_append_cons_self, List.splitOn_append_cons_self,
      List.map_append, List.map_append, last_part _ (by simpa using absent)]
  · exact last_part text member

theorem splitOn_strip (text : Text) :
    ((strip text).splitOn separator).map strip = (text.splitOn separator).map strip := by
  obtain ⟨lead, trail, front, back, whole⟩ := exists_strip text
  calc
    ((strip text).splitOn separator).map strip =
        ((lead ++ strip text).splitOn separator).map strip :=
      (splitOn_lead visible front).symm
    _ = ((lead ++ strip text ++ trail).splitOn separator).map strip :=
      (splitOn_trail visible back).symm
    _ = (text.splitOn separator).map strip := by rw [← whole]

end

theorem infix_of_mem_intercalate {part : Text} {parts : List Text}
    (member : part ∈ parts) : part <:+: [separator].intercalate parts := by
  induction parts with
  | nil => cases member
  | cons first parts induction =>
    cases parts with
    | nil =>
      rw [List.mem_singleton.mp member]
      simp
    | cons second parts =>
      rw [List.intercalate_cons_of_ne_nil (List.cons_ne_nil _ _)]
      rcases List.mem_cons.mp member with rfl | later
      · exact ⟨[], [separator] ++ [separator].intercalate (second :: parts), by simp⟩
      · exact (induction later).trans (List.suffix_append _ _).isInfix

theorem infix_of_mem_splitOn {part : Text}
    (member : part ∈ text.splitOn separator) : part <:+: text := by
  have inside : part <:+: [separator].intercalate (text.splitOn separator) :=
    infix_of_mem_intercalate member
  rwa [List.intercalate_splitOn] at inside

theorem mem_intercalate {parts : List Text} (member : char ∈ [separator].intercalate parts) :
    char = separator ∨ ∃ part ∈ parts, char ∈ part := by
  induction parts with
  | nil => cases member
  | cons first parts induction =>
    cases parts with
    | nil => exact .inr ⟨first, List.mem_cons_self, by simpa using member⟩
    | cons second parts =>
      rw [List.intercalate_cons_of_ne_nil (List.cons_ne_nil _ _)] at member
      rcases List.mem_append.mp member with early | later
      · rcases List.mem_append.mp early with here | between
        · exact .inr ⟨first, List.mem_cons_self, here⟩
        · exact .inl (List.mem_singleton.mp between)
      · rcases induction later with same | ⟨part, known, inside⟩
        · exact .inl same
        · exact .inr ⟨part, List.mem_cons_of_mem _ known, inside⟩

end

theorem code_of_alphanum {char : Char} (known : char.isAlphanum = true) :
    48 ≤ char.toNat ∧ char.toNat ≤ 122 := by
  unfold Char.isAlphanum Char.isAlpha Char.isUpper Char.isLower Char.isDigit at known
  simp only [Bool.or_eq_true, Bool.and_eq_true, decide_eq_true_eq,
    ge_iff_le, UInt32.le_iff_toNat_le] at known
  change ((65 ≤ char.toNat ∧ char.toNat ≤ 90) ∨ (97 ≤ char.toNat ∧ char.toNat ≤ 122)) ∨
    (48 ≤ char.toNat ∧ char.toNat ≤ 57) at known
  omega

end PyStrings
