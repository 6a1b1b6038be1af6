-- SUMMARY: How the operating system follows a path: `..` goes up from a directory, and where a path leads is its lexical normal form.
import DealScreening.Python.Path

/-!
# Following paths

A tree of files without symbolic links. A directory is the list of the names that lead to
it from the root.
-/

namespace Python

namespace Path

def dotdot : Str := [dot, dot]

/-- Where a part leads from a directory. The parent of the root is the root. -/
def enter (dir : List Str) (part : Str) : List Str :=
  if part = dotdot then dir.dropLast else dir ++ [part]

/-- Where an absolute path leads. -/
def location (p : Path) : List Str := p.tail.foldl enter []

/-- One more part of a relative path that climbs so many levels and then takes the names. -/
def climb : Nat × List Str → Str → Nat × List Str
  | (climbs, names), part =>
    if part = dotdot then
      if names = [] then (climbs + 1, []) else (climbs, names.dropLast)
    else (climbs, names ++ [part])

/-- The lexical normal form of a relative path. -/
def lexical (tail : List Str) : Nat × List Str := tail.foldl climb (0, [])

/-- A relative path leads up by its climbs, and from there down by its names. -/
theorem foldl_enter (dir tail : List Str) :
    tail.foldl enter dir = dir.take (dir.length - (lexical tail).1) ++ (lexical tail).2 := by
  unfold lexical
  induction tail using List.reverseRecOn with
  | nil => simp
  | append_singleton tail part ih =>
    rw [List.foldl_append, List.foldl_append, ih]
    obtain ⟨climbs, names⟩ := tail.foldl climb (0, [])
    simp only [List.foldl_cons, List.foldl_nil, enter, climb]
    by_cases hpart : part = dotdot
    · rw [if_pos hpart, if_pos hpart]
      by_cases hnames : names = []
      · rw [if_pos hnames, hnames, List.append_nil, List.append_nil, List.dropLast_eq_take,
          List.take_take, List.length_take]
        congr 1
        omega
      · rw [if_neg hnames, List.dropLast_append_of_ne_nil hnames]
    · rw [if_neg hpart, if_neg hpart, List.append_assoc]

/-- Names alone lead straight down. -/
theorem foldl_enter_of_notMem {tail : List Str} (h : dotdot ∉ tail) (dir : List Str) :
    tail.foldl enter dir = dir ++ tail := by
  induction tail generalizing dir with
  | nil => simp
  | cons part tail ih =>
    have hpart : part ≠ dotdot := fun heq => h (heq ▸ List.mem_cons_self ..)
    rw [List.foldl_cons, enter, if_neg hpart, ih fun hmem => h (List.mem_cons_of_mem _ hmem)]
    simp

end Path

inductive FileKind where
  | directory
  | regular
  deriving DecidableEq, Repr

/-- What there is at each place. -/
structure FileSystem where
  kind : List Str → Option FileKind

namespace FileSystem

variable (fs : FileSystem)

/-- The parts are followed one by one, each in a directory. -/
def follow (dir : List Str) : List Str → Option (List Str)
  | [] => some dir
  | part :: tail =>
    if fs.kind dir = some .directory then follow (Path.enter dir part) tail else none

/-- `p.is_file()` for an absolute path. -/
def isFile (p : Path) : Bool :=
  match fs.follow [] p.tail with
  | some place => fs.kind place = some .regular
  | none => false

variable {fs} in
/-- A path that can be followed leads to its normal form. -/
theorem follow_eq {dir tail place : List Str} (h : fs.follow dir tail = some place) :
    place = tail.foldl Path.enter dir := by
  induction tail generalizing dir with
  | nil =>
    cases h
    rfl
  | cons part tail ih =>
    rw [follow] at h
    split at h
    · exact ih h
    · cases h

end FileSystem

end Python
