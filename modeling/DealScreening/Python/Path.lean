-- SUMMARY: POSIX paths as `pathlib` parses them: the root, the parts after it, the name and its suffix.
import DealScreening.Python.Text

namespace Python

/-- A `PurePosixPath`. -/
structure Path where
  root : Str
  tail : List Str
  deriving DecidableEq, Repr

namespace Path

def sep : Nat := 0x2F

def dot : Nat := 0x2E

/-- `os.path.splitroot`. Exactly two slashes are a root of their own. -/
def splitRoot (s : Str) : Str :=
  match (s.takeWhile (· = sep)).length with
  | 0 => []
  | 2 => [sep, sep]
  | _ => [sep]

/-- `Path(s)`. Empty parts and `.` are dropped, `..` is kept. -/
def parse (s : Str) : Path :=
  ⟨splitRoot s, (s.splitOn sep).filter fun part => part ≠ [] ∧ part ≠ [dot]⟩

/-- `p / s`. -/
def join (p : Path) (s : Str) : Path :=
  let q := parse s
  if q.root = [] then ⟨p.root, p.tail ++ q.tail⟩ else q

/-- `p.name`. -/
def name (p : Path) : Str := p.tail.getLastD []

/-- `p.suffix`: from the last dot of the name, unless it is the first or the last
    character. -/
def suffix (p : Path) : Str :=
  let ext := p.name.rtakeWhile (· ≠ dot)
  if ext ≠ [] ∧ ext.length + 1 < p.name.length then dot :: ext else []

/-- `str(p)`. -/
def str (p : Path) : Str :=
  if p.root = [] ∧ p.tail = [] then [dot] else p.root ++ Str.join [sep] p.tail

/-- The path and its parents, the outermost first. -/
def lineage (p : Path) : List Path := p.tail.inits.tail.map fun tail => ⟨p.root, tail⟩

theorem splitRoot_of_notMem {s : Str} (h : sep ∉ s) : splitRoot s = [] := by
  cases s with
  | nil => rfl
  | cons c s =>
    have hc : c ≠ sep := fun heq => h (heq ▸ List.mem_cons_self ..)
    simp [splitRoot, hc]

/-- A string that is one part. -/
theorem parse_part {s : Str} (hsep : sep ∉ s) (hne : s ≠ []) (hdot : s ≠ [dot]) :
    parse s = ⟨[], [s]⟩ := by
  simp [parse, splitRoot_of_notMem hsep, List.splitOn_eq_singleton hsep, hne, hdot]

theorem join_part {p : Path} {s : Str} (hsep : sep ∉ s) (hne : s ≠ []) (hdot : s ≠ [dot]) :
    p.join s = ⟨p.root, p.tail ++ [s]⟩ := by
  simp [join, parse_part hsep hne hdot]

theorem sep_notMem_of_mem_splitOn {s part : Str} (h : part ∈ s.splitOn sep) : sep ∉ part := by
  induction s generalizing part with
  | nil =>
    rw [List.splitOn_nil, List.mem_singleton] at h
    simp [h]
  | cons c s ih =>
    rw [List.splitOn_cons_eq_if_modifyHead] at h
    split at h
    · rcases List.mem_cons.mp h with rfl | h
      · exact List.not_mem_nil
      · exact ih h
    · rename_i hc
      cases hs : s.splitOn sep with
      | nil => exact absurd hs (List.splitOn_ne_nil sep s)
      | cons first rest =>
        simp only [hs, List.modifyHead_cons, List.mem_cons] at h ih
        rcases h with rfl | h
        · have hne : sep ≠ c := fun heq => hc (by simp [heq])
          exact List.not_mem_cons_of_ne_of_not_mem hne (ih (.inl rfl))
        · exact ih (.inr h)

/-- The name of a parsed path has no slash. -/
theorem sep_notMem_name (s : Str) : sep ∉ (parse s).name := by
  unfold name
  rw [List.getLastD_eq_getLast?]
  cases hlast : (parse s).tail.getLast? with
  | none => exact List.not_mem_nil
  | some part =>
    have hmem := List.mem_of_getLast? hlast
    exact sep_notMem_of_mem_splitOn (List.mem_filter.mp hmem).1

/-- A string without a slash leads into the directory. -/
theorem join_of_notMem {p : Path} {s : Str} (h : sep ∉ s) :
    p.join s = ⟨p.root, p.tail ++ (parse s).tail⟩ := by
  have hroot : (parse s).root = [] := splitRoot_of_notMem h
  simp [join, hroot]

theorem mem_lineage {p : Path} (h : p.tail ≠ []) : p ∈ p.lineage := by
  obtain ⟨root, tail⟩ := p
  cases tail with
  | nil => exact absurd rfl h
  | cons part tail =>
    have hself : part :: tail ∈ (part :: tail).inits.tail := by
      simp only [List.inits_cons, List.tail_cons, List.mem_map]
      exact ⟨tail, (List.mem_inits tail tail).mpr List.prefix_rfl, rfl⟩
    exact List.mem_map_of_mem hself

/-! ## A path and its text -/

/-- What `Path` makes of a string: no part is empty or `.`, and none has a slash. -/
structure Parsed (p : Path) : Prop where
  root : p.root = [] ∨ p.root = [sep] ∨ p.root = [sep, sep]
  parts : ∀ part ∈ p.tail, part ≠ [] ∧ part ≠ [dot] ∧ sep ∉ part

theorem parsed_parse (s : Str) : (parse s).Parsed := by
  constructor
  · unfold parse splitRoot
    dsimp only
    split
    · exact .inl rfl
    · exact .inr (.inr rfl)
    · exact .inr (.inl rfl)
  · intro part hpart
    obtain ⟨hsplit, hkept⟩ := List.mem_filter.mp hpart
    have hkept := of_decide_eq_true hkept
    exact ⟨hkept.1, hkept.2, sep_notMem_of_mem_splitOn hsplit⟩

theorem Parsed.join {p : Path} (h : p.Parsed) (s : Str) : (p.join s).Parsed := by
  unfold Path.join
  dsimp only
  split
  · refine ⟨h.root, fun part hpart => ?_⟩
    rcases List.mem_append.mp hpart with hpart | hpart
    · exact h.parts part hpart
    · exact (parsed_parse s).parts part hpart
  · exact parsed_parse s

/-- The text of a path is read as the path. -/
theorem Parsed.parse_str {p : Path} (h : p.Parsed) : parse p.str = p := by
  obtain ⟨root, tail⟩ := p
  obtain ⟨hroot, hparts⟩ := h
  dsimp only at hroot hparts
  cases htail : tail with
  | nil =>
    subst htail
    rcases hroot with rfl | rfl | rfl <;> decide
  | cons part rest =>
    rw [← htail]
    have hne : tail ≠ [] := by simp [htail]
    have hsplit : (Str.join [sep] tail).splitOn sep = tail :=
      List.splitOn_intercalate sep (fun part hpart => (hparts part hpart).2.2) hne
    have hfilter : tail.filter (fun part => part ≠ [] ∧ part ≠ [dot]) = tail :=
      List.filter_eq_self.mpr fun part hpart => by simp [hparts part hpart]
    -- The text after the root does not begin with a slash.
    obtain ⟨c, hhead, hc⟩ : ∃ c, (Str.join [sep] tail).head? = some c ∧ c ≠ sep := by
      obtain ⟨hempty, -, hslash⟩ := hparts part (by simp [htail])
      obtain ⟨c, part', rfl⟩ := List.exists_cons_of_ne_nil hempty
      refine ⟨c, ?_, fun heq => hslash (by simp [heq])⟩
      rw [htail]
      cases rest <;> simp [Str.join, List.intercalate]
    obtain ⟨u, hu⟩ := List.head?_eq_some_iff.mp hhead
    have hstr : str ⟨root, tail⟩ = root ++ Str.join [sep] tail := by
      simp [str, hne]
    have hrest : ∀ u : Str, (sep :: u).splitOn sep = [] :: u.splitOn sep := fun u =>
      List.splitOn_append_cons_self_of_not_mem List.not_mem_nil u
    have hroot' : splitRoot (root ++ Str.join [sep] tail) = root := by
      rw [hu]
      rcases hroot with rfl | rfl | rfl <;> simp [splitRoot, hc]
    have htail' : ((root ++ Str.join [sep] tail).splitOn sep).filter
        (fun part => part ≠ [] ∧ part ≠ [dot]) = tail := by
      rcases hroot with rfl | rfl | rfl
      · rw [List.nil_append, hsplit, hfilter]
      · rw [List.singleton_append, hrest, hsplit, List.filter_cons_of_neg (by simp), hfilter]
      · rw [List.cons_append, List.singleton_append, hrest, hrest, hsplit,
          List.filter_cons_of_neg (by simp), List.filter_cons_of_neg (by simp), hfilter]
    rw [hstr, parse, hroot', htail']

/-- A path is known by its text. -/
theorem Parsed.str_injective {p q : Path} (hp : p.Parsed) (hq : q.Parsed) (h : p.str = q.str) : p = q := by
  rw [← hp.parse_str, h, hq.parse_str]

/-- A name with a suffix is a part. -/
theorem name_of_suffix {p : Path} (h : p.suffix ≠ []) : p.name ≠ [] ∧ p.name ≠ [dot] ∧ p.name ≠ [dot, dot] := by
  refine ⟨?_, ?_, ?_⟩ <;>
  · intro hname
    refine h ?_
    simp [suffix, hname]

end Path

end Python
