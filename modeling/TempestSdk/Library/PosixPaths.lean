import Mathlib.Data.List.Basic

/-!
# POSIX paths as texts and as parts

What `pathlib` reads out of the text of a path, and the text it writes.  A path
carries the proof that its parts are in normal form, so that the text of a path
is read back as the path.  There are no symbolic links.
-/

namespace PosixPaths

abbrev Text := List Char

inductive Root where
  | relative
  | absolute
  | doubled
deriving DecidableEq

def Root.str : Root → Text
  | .relative => []
  | .absolute => ['/']
  | .doubled => ['/', '/']

def Root.parse : Text → Root
  | '/' :: '/' :: '/' :: _ => .absolute
  | '/' :: '/' :: _ => .doubled
  | '/' :: _ => .absolute
  | _ => .relative

/-- A part that stands in a path: not empty, not the directory itself, and
without a slash. -/
def IsPart (part : Text) : Prop := part ≠ [] ∧ part ≠ ['.'] ∧ '/' ∉ part

/-- `PurePosixPath`. -/
structure Path where
  root : Root
  parts : List Text
  clean : ∀ part ∈ parts, IsPart part

def normal (parts : List Text) : List Text :=
  parts.filter fun part => part ≠ [] ∧ part ≠ ['.']

theorem not_mem_of_mem_splitOn {text part : Text}
    (member : part ∈ text.splitOn '/') : '/' ∉ part := by
  induction text generalizing part with
  | nil =>
    rw [List.splitOn_nil, List.mem_singleton] at member
    rw [member]
    exact List.not_mem_nil
  | cons char rest induction =>
    rw [List.splitOn_cons_eq_if_modifyHead] at member
    split at member
    case isTrue =>
      rcases List.mem_cons.mp member with first | later
      · rw [first]
        exact List.not_mem_nil
      · exact induction later
    case isFalse other =>
      obtain ⟨first, others, pieces⟩ :=
        List.exists_cons_of_ne_nil (List.splitOn_ne_nil '/' rest)
      rw [pieces] at member induction
      rcases List.mem_cons.mp member with same | later
      · have rest_free := induction List.mem_cons_self
        have differs : '/' ≠ char := fun slash =>
          other (beq_iff_eq.mpr slash.symm)
        rw [same]
        simp [rest_free, differs]
      · exact induction (List.mem_cons_of_mem _ later)

theorem splitOn_injective {text other : Text}
    (same : text.splitOn '/' = other.splitOn '/') : text = other := by
  have joined := congrArg (['/'].intercalate) same
  rw [List.intercalate_splitOn, List.intercalate_splitOn] at joined
  exact joined

theorem normal_clean {parts : List Text} (free : ∀ part ∈ parts, '/' ∉ part) :
    ∀ part ∈ normal parts, IsPart part := by
  intro part member
  obtain ⟨inside, kept⟩ := List.mem_filter.mp member
  have kept : part ≠ [] ∧ part ≠ ['.'] := of_decide_eq_true kept
  exact ⟨kept.1, kept.2, free part inside⟩

theorem normal_eq_self {parts : List Text}
    (clean : ∀ part ∈ parts, IsPart part) : normal parts = parts := by
  apply List.filter_eq_self.mpr
  intro part member
  exact decide_eq_true ⟨(clean part member).1, (clean part member).2.1⟩

/-- `Path(text)`. -/
def Path.parse (text : Text) : Path where
  root := .parse text
  parts := normal (text.splitOn '/')
  clean := normal_clean fun _part member => not_mem_of_mem_splitOn member

namespace Path

/-- `str(path)`. -/
def str (path : Path) : Text :=
  if path.root = .relative ∧ path.parts = [] then ['.']
  else path.root.str ++ ['/'].intercalate path.parts

def name (path : Path) : Text := path.parts.getLast?.getD []

end Path

/-- The last point of a name and what follows, unless the name starts or ends
with it. -/
def suffix (name : Text) : Text :=
  let extension := name.reverse.takeWhile fun char => char ≠ '.'
  if extension.length + 1 < name.length ∧ extension ≠ [] then
    '.' :: extension.reverse
  else []

def enter (directory : List Text) (part : Text) : List Text :=
  if part = ['.', '.'] then directory.dropLast else directory ++ [part]

def resolve (base : List Text) (path : Path) : List Text :=
  path.parts.foldl enter (if path.root = .relative then base else [])

theorem foldl_enter {parts : List Text} (plain : ['.', '.'] ∉ parts)
    (base : List Text) : parts.foldl enter base = base ++ parts := by
  induction parts generalizing base with
  | nil => exact (List.append_nil base).symm
  | cons part others induction =>
    obtain ⟨here, later⟩ := List.ne_and_not_mem_of_not_mem_cons plain
    have entered : enter base part = base ++ [part] := if_neg here.symm
    rw [List.foldl_cons, entered, induction later, List.append_assoc]
    rfl

theorem resolve_append {first rest : Text} {base : List Text}
    (part : IsPart first) (parts : ∀ part ∈ rest.splitOn '/', IsPart part)
    (plain : ['.', '.'] ∉ first :: rest.splitOn '/') :
    resolve base (Path.parse (first ++ '/' :: rest)) = base ++ first :: rest.splitOn '/' := by
  obtain ⟨filled, _dot, free⟩ := part
  have root : Root.parse (first ++ '/' :: rest) = .relative := by
    obtain ⟨char, chars, rfl⟩ := List.exists_cons_of_ne_nil filled
    have no_slash : char ≠ '/' := by
      rintro rfl
      exact free List.mem_cons_self
    simp [Root.parse, no_slash]
  have pieces : normal ((first ++ '/' :: rest).splitOn '/') = first :: rest.splitOn '/' := by
    rw [List.splitOn_append_cons_self_of_not_mem free]
    apply normal_eq_self
    intro piece member
    rcases List.mem_cons.mp member with rfl | later
    · exact ⟨filled, _dot, free⟩
    · exact parts piece later
  have entered : resolve base (Path.parse (first ++ '/' :: rest)) =
      (normal ((first ++ '/' :: rest).splitOn '/')).foldl enter base :=
    congrArg (List.foldl enter · _) (if_pos root)
  rw [entered, pieces, foldl_enter plain]

theorem intercalate_head {char : Char} {chars : Text} {parts : List Text} :
    ∃ rest, ['/'].intercalate ((char :: chars) :: parts) = char :: rest := by
  cases parts with
  | nil => exact ⟨chars, by simp⟩
  | cons second others =>
    exact ⟨chars ++ ['/'] ++ ['/'].intercalate (second :: others),
      by simp [List.intercalate_cons_cons]⟩

namespace Path

theorem parse_root_str (path : Path) : Root.parse path.str = path.root := by
  obtain ⟨root, parts, clean⟩ := path
  cases parts with
  | nil => cases root with
    | relative => rfl
    | absolute => rfl
    | doubled => rfl
  | cons part others =>
    obtain ⟨filled, _dot, free⟩ := clean part List.mem_cons_self
    obtain ⟨char, chars, rfl⟩ := List.exists_cons_of_ne_nil filled
    obtain ⟨rest, text⟩ := @intercalate_head char chars others
    have no_slash : char ≠ '/' := by
      rintro rfl
      exact free List.mem_cons_self
    cases root with
    | relative => simp [str, Root.str, text, Root.parse, no_slash]
    | absolute => simp [str, Root.str, text, Root.parse, no_slash]
    | doubled => simp [str, Root.str, text, Root.parse, no_slash]

theorem normal_intercalate {parts : List Text} (clean : ∀ part ∈ parts, IsPart part) :
    normal ((['/'].intercalate parts).splitOn '/') = parts := by
  cases parts with
  | nil => rfl
  | cons part others =>
    rw [List.splitOn_intercalate '/' (fun part member =>
      (clean part member).2.2) (List.cons_ne_nil part others)]
    exact normal_eq_self clean

theorem normal_slash (text : Text) :
    normal (('/' :: text).splitOn '/') = normal (text.splitOn '/') := by
  rw [List.splitOn_cons_eq_if_modifyHead]
  rfl

theorem normal_str (path : Path) : normal (path.str.splitOn '/') = path.parts := by
  obtain ⟨root, parts, clean⟩ := path
  unfold str
  split
  case isTrue empty =>
    rw [empty.2]
    rfl
  case isFalse =>
    cases root with
    | relative => exact normal_intercalate clean
    | absolute => exact (normal_slash _).trans (normal_intercalate clean)
    | doubled =>
      exact (normal_slash _).trans ((normal_slash _).trans (normal_intercalate clean))

theorem parse_str (path : Path) : parse path.str = path := by
  have root := parse_root_str path
  have parts := normal_str path
  obtain ⟨_, _, _⟩ := path
  simp only [parse, mk.injEq]
  exact ⟨root, parts⟩

end Path

end PosixPaths
