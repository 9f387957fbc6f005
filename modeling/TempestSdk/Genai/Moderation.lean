import TempestSdk.Library.PyStrings

/-!
# Rule moderation

Terms and texts meet in one form: NFKC, without format characters, casefolded.
What Python reads in the Unicode tables is a parameter, with the facts of the
tables that carry the argument.
-/

namespace TempestSdk.Moderation

open PyStrings (Text)

/-- The tables behind `unicodedata`, `str.casefold` and `\w`. -/
structure Unicode where
  nfkc : Text → Text
  /-- `unicodedata.category(char) == "Cf"`. -/
  isFormat : Char → Bool
  foldChar : Char → Text
  isWord : Char → Bool
  nfkc_nil : nfkc [] = []
  /-- A format character has no decomposition and composes with nothing. -/
  nfkc_format : ∀ front char back, isFormat char = true →
    nfkc (front ++ char :: back) = nfkc front ++ char :: nfkc back
  nfkc_visible : ∀ text, (∀ char ∈ text, isFormat char = false) →
    ∀ char ∈ nfkc text, isFormat char = false
  fold_visible : ∀ char, isFormat char = false →
    ∀ folded ∈ foldChar char, isFormat folded = false

namespace Unicode

variable (unicode : Unicode)

def casefold (text : Text) : Text :=
  text.flatMap unicode.foldChar

/-- `_normalize_for_matching`. -/
def normalizeForMatching (text : Text) : Text :=
  let composed := unicode.nfkc text
  let visible := composed.filter fun char => !unicode.isFormat char
  unicode.casefold visible

/-- The pattern `(?<!\w)term(?!\w)` matches at the head of `rest`. -/
def matchesHere (term : Text) (last : Option Char) (rest : Text) : Bool :=
  !last.any unicode.isWord && term.isPrefixOf rest &&
    !(rest.drop term.length).head?.any unicode.isWord

def search (term : Text) : Option Char → Text → Bool
  | last, [] => unicode.matchesHere term last []
  | last, char :: rest =>
    unicode.matchesHere term last (char :: rest) || search term (some char) rest

end Unicode

structure ModerationResult where
  flagged : Bool
  categories : List Text
  score : Rat
deriving DecidableEq

structure RuleModerator where
  category : Text
  patterns : List Text

/-- `RuleModerator(blocklist, category=category)`. -/
def RuleModerator.init (unicode : Unicode) (blocklist : List Text) (category : Text) :
    RuleModerator where
  category := category
  patterns := ((blocklist.filter fun term => !term.isEmpty).map
    unicode.normalizeForMatching).filter fun term => !term.isEmpty

def RuleModerator.check (unicode : Unicode) (moderator : RuleModerator) (text : Text) :
    ModerationResult :=
  let normalized := unicode.normalizeForMatching text
  let matched := moderator.patterns.any fun pattern => unicode.search pattern none normalized
  { flagged := matched,
    categories := if matched then [moderator.category] else [],
    score := if matched then 1 else 0 }

/-- The second text is the first with format characters inserted. -/
inductive Inserted (unicode : Unicode) : Text → Text → Prop where
  | nil : Inserted unicode [] []
  | keep {text spelled : Text} (char : Char) (rest : Inserted unicode text spelled) :
      Inserted unicode (char :: text) (char :: spelled)
  | insert {text spelled : Text} (char : Char) (format : unicode.isFormat char = true)
      (rest : Inserted unicode text spelled) : Inserted unicode text (char :: spelled)

structure Spelling (unicode : Unicode) where
  text : Text
  spelled : Text
  inserted : Inserted unicode text spelled

def SameVerdicts (unicode : Unicode) (text other : Text) : Prop :=
  ∀ blocklist category, (RuleModerator.init unicode blocklist category).check unicode other =
      (RuleModerator.init unicode blocklist category).check unicode text

structure Undodged {unicode : Unicode} (spelling : Spelling unicode) : Prop where
  inserted : SameVerdicts unicode spelling.text spelling.spelled
  replaced : ∀ other, unicode.nfkc other = unicode.nfkc spelling.text →
    SameVerdicts unicode spelling.text other
  idempotent : unicode.normalizeForMatching (unicode.normalizeForMatching spelling.text) =
    unicode.normalizeForMatching spelling.text

def Unicode.stretches (unicode : Unicode) (text : Text) : Text :=
  unicode.casefold ((text.splitOnP unicode.isFormat).flatMap unicode.nfkc)

section

variable {unicode : Unicode} {term text other : Text} {last : Option Char}

theorem filter_visible (visible : ∀ char ∈ text, unicode.isFormat char = false) :
    (text.filter fun char => !unicode.isFormat char) = text := by
  apply List.filter_eq_self.mpr
  intro char member
  rw [visible char member]
  rfl

/-- Format characters cut the text for NFKC, wherever they stand. -/
theorem visible_nfkc (text : Text) :
    ((unicode.nfkc text).filter fun char => !unicode.isFormat char) =
      (text.splitOnP unicode.isFormat).flatMap unicode.nfkc := by
  induction size : text.length using Nat.strong_induction_on generalizing text with
  | _ length induction =>
    by_cases visible : ∀ char ∈ text, unicode.isFormat char = false
    · have whole : text.splitOnP unicode.isFormat = [text] :=
        List.splitOnP_eq_singleton visible
      rw [filter_visible (unicode.nfkc_visible text visible), whole]
      exact List.append_nil _ |>.symm
    · push Not at visible
      obtain ⟨char, member, shown⟩ := visible
      have format : unicode.isFormat char = true := Bool.eq_true_of_not_eq_false shown
      obtain ⟨front, back, rfl⟩ := List.append_of_mem member
      rw [List.length_append, List.length_cons] at size
      have before := induction front.length (by omega) front rfl
      have behind := induction back.length (by omega) back rfl
      rw [unicode.nfkc_format front char back format, List.splitOnP_append_cons _ _ format,
        List.flatMap_append, List.filter_append, before]
      rw [List.filter_cons_of_neg (by rw [format]; exact Bool.false_ne_true), behind]

theorem normalize_eq_stretches (text : Text) :
    unicode.normalizeForMatching text = unicode.stretches text :=
  congrArg unicode.casefold (visible_nfkc text)

theorem normalize_nil : unicode.normalizeForMatching [] = [] := by
  unfold Unicode.normalizeForMatching
  rw [unicode.nfkc_nil]
  rfl

theorem visible_stretches (text : Text) :
    ∀ char ∈ unicode.stretches text, unicode.isFormat char = false := by
  intro folded member
  rw [← normalize_eq_stretches] at member
  obtain ⟨char, inside, made⟩ := List.mem_flatMap.mp member
  have shown := (List.mem_filter.mp inside).2
  exact unicode.fold_visible char (Bool.not_eq_true' _ |>.mp shown) folded made

theorem normalize_stretches (text : Text) :
    unicode.normalizeForMatching (unicode.stretches text) =
      unicode.casefold (unicode.nfkc (unicode.stretches text)) := by
  have shown := unicode.nfkc_visible _ (visible_stretches text)
  exact congrArg unicode.casefold (filter_visible shown)

theorem search_self (term : Text) : unicode.search term none term = true := by
  have here : unicode.matchesHere term none term = true := by
    unfold Unicode.matchesHere
    rw [List.drop_length, List.isPrefixOf_iff_prefix.mpr (List.prefix_refl term)]
    rfl
  cases term with
  | nil => exact here
  | cons char rest => exact Bool.or_eq_true_iff.mpr (.inl here)

theorem prefix_of_matchesHere (here : unicode.matchesHere term last text = true) :
    term <+: text := by
  have both := (Bool.and_eq_true_iff.mp (Bool.and_eq_true_iff.mp here).1).2
  exact List.isPrefixOf_iff_prefix.mp both

theorem infix_of_search (found : unicode.search term last text = true) : term <:+: text := by
  induction text generalizing last with
  | nil => exact (prefix_of_matchesHere found).isInfix
  | cons char rest induction =>
    rcases Bool.or_eq_true_iff.mp found with here | later
    · exact (prefix_of_matchesHere here).isInfix
    · exact (induction later).trans (List.suffix_cons char rest).isInfix

theorem patterns_alone (some_term : unicode.normalizeForMatching term ≠ []) :
    (RuleModerator.init unicode [term] []).patterns = [unicode.normalizeForMatching term] := by
  have written : term ≠ [] := by
    rintro rfl
    exact some_term normalize_nil
  simp [RuleModerator.init, written, some_term]

/-- A block list of one term flags what contains the normalized term. -/
theorem contained_of_same
    (same : ((RuleModerator.init unicode [term] []).check unicode other).flagged =
      ((RuleModerator.init unicode [term] []).check unicode term).flagged) :
    unicode.normalizeForMatching term <:+: unicode.normalizeForMatching other := by
  by_cases empty : unicode.normalizeForMatching term = []
  · rw [empty]
    exact List.nil_infix
  · unfold RuleModerator.check at same
    rw [patterns_alone empty] at same
    simp only [List.any_cons, List.any_nil, Bool.or_false, search_self] at same
    exact infix_of_search same

theorem sameVerdicts_iff : SameVerdicts unicode text other ↔
    unicode.normalizeForMatching other = unicode.normalizeForMatching text := by
  constructor
  · intro same
    have inside := contained_of_same (congrArg (·.flagged) (same [text] []))
    have around := contained_of_same (congrArg (·.flagged) (same [other] [])).symm
    exact around.eq_of_length (around.length_le.antisymm inside.length_le)
  · intro same blocklist category
    unfold RuleModerator.check
    rw [same]

theorem sameVerdicts_of_nfkc (same : unicode.nfkc other = unicode.nfkc text) :
    SameVerdicts unicode text other := by
  apply sameVerdicts_iff.mpr
  unfold Unicode.normalizeForMatching
  rw [same]

end

/-- The format characters must not part what NFKC joins, and the folded text must
be in its own normal form. -/
theorem undodged_iff {unicode : Unicode} (spelling : Spelling unicode) : Undodged spelling ↔
      unicode.stretches spelling.spelled = unicode.stretches spelling.text ∧
      unicode.casefold (unicode.nfkc (unicode.stretches spelling.text)) =
        unicode.stretches spelling.text := by
  constructor
  · intro undodged
    have same := sameVerdicts_iff.mp undodged.inserted
    have stable := undodged.idempotent
    rw [normalize_eq_stretches, normalize_eq_stretches] at same
    rw [normalize_eq_stretches spelling.text, normalize_stretches] at stable
    exact ⟨same, stable⟩
  · rintro ⟨same, stable⟩
    refine ⟨sameVerdicts_iff.mpr ?_, fun other => sameVerdicts_of_nfkc, ?_⟩
    · rw [normalize_eq_stretches, normalize_eq_stretches, same]
    · rw [normalize_eq_stretches spelling.text, normalize_stretches, stable]

/-- NFKC where `é` is the only composed letter. -/
def attach : Char → Text → Text
  | 'e', '\u0301' :: rest => 'é' :: rest
  | char, rest => char :: rest

def isZeroWidth (char : Char) : Bool :=
  char == '\u200b'

theorem attach_append (char : Char) (front back : Text) :
    attach char (front ++ '\u200b' :: back) = attach char front ++ '\u200b' :: back := by
  cases front with
  | nil => unfold attach; split <;> simp_all
  | cons next front => unfold attach; split <;> simp_all

theorem foldr_attach (front back : Text) : (front ++ '\u200b' :: back).foldr attach [] =
      front.foldr attach [] ++ '\u200b' :: back.foldr attach [] := by
  induction front with
  | nil => rfl
  | cons char front induction =>
    rw [List.cons_append, List.foldr_cons, induction, attach_append]
    rfl

theorem mem_attach {first char : Char} {rest : Text} (member : char ∈ attach first rest) :
    char = 'é' ∨ char ∈ first :: rest := by
  unfold attach at member
  split at member
  · rcases List.mem_cons.mp member with accented | inside
    · exact .inl accented
    · exact .inr (List.mem_cons_of_mem _ (List.mem_cons_of_mem _ inside))
  · exact .inr member

theorem visible_attach {text : Text} (visible : ∀ char ∈ text, isZeroWidth char = false) :
    ∀ char ∈ text.foldr attach [], isZeroWidth char = false := by
  induction text with
  | nil => exact visible
  | cons first text induction =>
    intro char member
    rcases mem_attach member with rfl | inside
    · rfl
    · rcases List.mem_cons.mp inside with rfl | inside
      · exact visible char List.mem_cons_self
      · exact induction (fun other later =>
          visible other (List.mem_cons_of_mem _ later)) char inside

def acute : Unicode where
  nfkc := fun text => text.foldr attach []
  isFormat := isZeroWidth
  foldChar := fun char => [char]
  isWord := fun char => char.isAlphanum || char == '_' || char == 'é'
  nfkc_nil := rfl
  nfkc_format := by
    intro front char back format
    rw [eq_of_beq format]
    exact foldr_attach front back
  nfkc_visible := fun text => visible_attach
  fold_visible := by
    intro char visible folded member
    rwa [List.mem_singleton.mp member]

def parted : Spelling acute where
  text := ['c', 'a', 'f', 'e', '\u0301']
  spelled := ['c', 'a', 'f', 'e', '\u200b', '\u0301']
  inserted := .keep _ (.keep _ (.keep _ (.keep _ (.insert _ rfl (.keep _ .nil)))))

theorem zero_width_space_dodges : ¬Undodged parted := by
  intro undodged
  have same := undodged.inserted [['c', 'a', 'f', 'é']] []
  revert same
  decide

end TempestSdk.Moderation
