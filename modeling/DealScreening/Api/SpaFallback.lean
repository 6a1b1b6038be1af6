-- SUMMARY: The route that serves the frontend: which request paths lead out of the directory of the static bundle.
import DealScreening.Python.FileSystem

/-!
# The SPA fallback

The part of the request path after the first slash is joined to `STATIC_DIR` as it is. It
may be absolute, and it may hold `..`.
-/

namespace Main

open Python

/-- `__file__`, resolved: absolute and without `..`. -/
structure ModuleFile where
  path : Path
  absolute : path.root ≠ []
  resolved : Path.dotdot ∉ path.tail

/-- `p.parent`. -/
def parent (p : Path) : Path := ⟨p.root, p.tail.dropLast⟩

variable (file : ModuleFile)

/-- `STATIC_DIR`. -/
def staticDir : Path := (parent (parent (parent file.path))).join (text "static")

/-- The file that `spa_fallback` answers with. -/
def spaFallback (fs : FileSystem) (path : Str) : Path :=
  let joined := (staticDir file).join path
  if fs.isFile joined = true then joined else (staticDir file).join (text "index.html")

/-- The place of the file is below `STATIC_DIR`. -/
def InsideStatic (p : Path) : Prop :=
  (staticDir file).location <+: p.location ∧ (staticDir file).location ≠ p.location

/-- A path that names a place below `STATIC_DIR`: it begins at the root with the names of
    `STATIC_DIR`; or it climbs some levels and comes down again through the last names. Each
    time one more name follows. -/
def NamesStatic (path : Str) : Prop :=
  let (climbs, names) := Path.lexical (Path.parse path).tail
  let dir := (staticDir file).tail
  let through := if (Path.parse path).root = [] then dir.drop (dir.length - climbs) else dir
  through <+: names ∧ through ≠ names

instance (path : Str) : Decidable (NamesStatic file path) := by
  unfold NamesStatic
  infer_instance

section
variable {file}

theorem staticDir_eq : staticDir file =
    ⟨file.path.root, file.path.tail.dropLast.dropLast.dropLast ++ [text "static"]⟩ :=
  Path.join_part (by decide) (by decide) (by decide)

/-- `STATIC_DIR` is in normal form. -/
theorem staticDir_location : (staticDir file).location = (staticDir file).tail := by
  refine (Path.foldl_enter_of_notMem ?_ []).trans (List.nil_append _)
  rw [staticDir_eq, List.mem_append, not_or]
  refine ⟨fun hmem => file.resolved ?_, by decide⟩
  exact List.mem_of_mem_dropLast (List.mem_of_mem_dropLast (List.mem_of_mem_dropLast hmem))

theorem append_prefix_append {α : Type} (xs ys zs : List α) :
    (xs ++ ys <+: xs ++ zs ∧ xs ++ ys ≠ xs ++ zs) ↔ (ys <+: zs ∧ ys ≠ zs) := by
  rw [List.prefix_append_right_inj, Ne, List.append_cancel_left_eq]

theorem insideStatic_join {path : Str} :
    InsideStatic file ((staticDir file).join path) ↔ NamesStatic file path := by
  unfold InsideStatic NamesStatic Path.join
  rw [staticDir_location]
  dsimp only
  by_cases hroot : (Path.parse path).root = []
  · rw [if_pos hroot, if_pos hroot]
    have hlocation : Path.location ⟨(staticDir file).root, (staticDir file).tail ++ (Path.parse path).tail⟩ =
        (Path.parse path).tail.foldl Path.enter (staticDir file).tail := by
      rw [Path.location, List.foldl_append]
      exact congrArg (List.foldl Path.enter · _) staticDir_location
    rw [hlocation, Path.foldl_enter]
    have hcancel := append_prefix_append
      ((staticDir file).tail.take ((staticDir file).tail.length - (Path.lexical (Path.parse path).tail).1))
      ((staticDir file).tail.drop ((staticDir file).tail.length - (Path.lexical (Path.parse path).tail).1))
      (Path.lexical (Path.parse path).tail).2
    rwa [List.take_append_drop] at hcancel
  · rw [if_neg hroot, if_neg hroot, Path.location, Path.foldl_enter, List.take_nil, List.nil_append]

theorem namesStatic_index : NamesStatic file (text "index.html") := by
  have hlexical : Path.lexical (Path.parse (text "index.html")).tail = (0, [text "index.html"]) := by
    decide
  have hroot : (Path.parse (text "index.html")).root = [] := by decide
  unfold NamesStatic
  rw [hlexical]
  dsimp only
  rw [if_pos hroot]
  simp

theorem insideStatic_index : InsideStatic file ((staticDir file).join (text "index.html")) :=
  insideStatic_join.mpr namesStatic_index

/-- The file served is in the static bundle exactly when the request names a place there or no
    file at all. -/
theorem spaFallback_inside_iff {fs : FileSystem} {path : Str} :
    InsideStatic file (spaFallback file fs path) ↔
      (fs.isFile ((staticDir file).join path) = true → NamesStatic file path) := by
  unfold spaFallback
  dsimp only
  split
  · rename_i hfile
    rw [insideStatic_join]
    exact ⟨fun h _ => h, fun h => h hfile⟩
  · rename_i hfile
    exact iff_of_true insideStatic_index fun h => absurd h hfile

end

/-- A file system in which `/etc/passwd` is the only file. -/
def passwdOnly : FileSystem where
  kind place :=
    if place = [] ∨ place = [text "etc"] then some .directory
    else if place = [text "etc", text "passwd"] then some .regular
    else none

/-- `/app/src/app/main.py`. -/
def deployedFile : ModuleFile :=
  ⟨Path.parse (text "/app/src/app/main.py"), by decide, by decide⟩

/-- `GET //etc/passwd` serves the file of that name. -/
theorem spaFallback_passwd :
    ¬ ∀ (file : ModuleFile) (fs : FileSystem) (path : Str),
      InsideStatic file (spaFallback file fs path) := by
  intro h
  have hinside := h deployedFile passwdOnly (text "/etc/passwd")
  have hserved : spaFallback deployedFile passwdOnly (text "/etc/passwd") =
      Path.parse (text "/etc/passwd") := by decide
  rw [hserved] at hinside
  exact absurd hinside.1 (by decide)

end Main
