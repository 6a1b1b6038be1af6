-- SUMMARY: Structural checks of an uploaded PDF over a parser whose every access may raise: which documents are accepted, and when that is safe.
import DealScreening.InputValidation.FileValidator

/-!
# PDF validation

`validate_pdf` reads the document through the parser. The walk over the catalog and the pages
answers "nothing dangerous" when an access raises, and looks for keys at fixed places only.
-/

namespace PdfValidator

open Python

-- ---------------------------------------------------------------------------
-- The parser
-- ---------------------------------------------------------------------------

/-- An exception of the parser, by its `str`. -/
structure PdfError where
  str : Str

abbrev Access := Except PdfError

/-- A parsed object. What a dictionary holds under a key is what `get_object` of the value gives,
    or the exception of `get` or of `get_object`. -/
inductive PdfObject where
  /-- A number, a string, a boolean or `null`. -/
  | scalar
  | name (n : Str)
  | array (items : List (Except PdfError PdfObject))
  | dict (entries : List (Str × Except PdfError PdfObject))

abbrev Entries := List (Str × Access PdfObject)

/-- `PdfReader`: its `is_encrypted`, the entries of its trailer and its `pages`. A page is a
    dictionary, and the iteration may raise at it. -/
structure PdfReader where
  isEncrypted : Access Bool
  trailer : Entries
  pages : Access (List (Access Entries))

/-- `d.get(key)`, and unless that is `None` its `get_object`. -/
def getObject (d : Entries) (key : Str) : Access (Option PdfObject) :=
  match d.lookup key with
  | none => return none
  | some value => return some (← value)

/-- The same for an object that need not be a dictionary: the others have no `get`. -/
def PdfObject.getObject : PdfObject → Str → Access (Option PdfObject)
  | .dict d, key => PdfValidator.getObject d key
  | _, _ => throw ⟨text "object has no attribute 'get'"⟩

-- ---------------------------------------------------------------------------
-- The checks
-- ---------------------------------------------------------------------------

/-- `MAX_PDF_PAGES`. -/
def maxPdfPages : Nat := 500

/-- `DANGEROUS_KEYS`. -/
def dangerousKeys : List Str :=
  [text "/JavaScript", text "/JS", text "/Launch", text "/EmbeddedFile"]

/-- `SCRIPT_ACTION_KEYS`. -/
def scriptActionKeys : List Str := [text "/JavaScript", text "/JS"]

/-- The two keys that the names dictionary is looked at for. -/
def nameKeys : List Str := [text "/JavaScript", text "/EmbeddedFiles"]

/-- `_check_dict_for_keys`. -/
def checkDictForKeys (keys : List Str) : PdfObject → Bool
  | .dict d => keys.any fun key => d.any (·.1 == key)
  | _ => false

/-- The inner loop, over the triggers of a page's `/AA`. -/
def checkTriggers (aa : Entries) : Access Bool :=
  aa.anyM fun trigger => return checkDictForKeys scriptActionKeys (← trigger.2)

/-- The body of the loop over the pages. -/
def checkPage (page : Access Entries) : Access Bool := do
  match ← getObject (← page) (text "/AA") with
  | some (.dict aa) => checkTriggers aa
  | _ => return false

/-- The body of the `try` of `_has_dangerous_actions`. -/
def walk (reader : PdfReader) : Access Bool := do
  let some catalog ← getObject reader.trailer (text "/Root") | return false
  if checkDictForKeys dangerousKeys catalog then return true
  let openAction ← catalog.getObject (text "/OpenAction")
  if openAction.any (checkDictForKeys scriptActionKeys) then return true
  let names ← catalog.getObject (text "/Names")
  if names.any (checkDictForKeys nameKeys) then return true
  (← reader.pages).anyM checkPage

/-- `_has_dangerous_actions`. -/
def hasDangerousActions (reader : PdfReader) : Bool :=
  match walk reader with
  | .ok found => found
  -- `except Exception: pass`
  | .error _ => false

/-- `validate_pdf`. The outer `Except` is an exception that leaves the function. -/
def validatePdf (pdfReader : Bytes → Access PdfReader) (file : ValidatedFile) :
    Access (Except ValidationFailure ValidatedFile) :=
  match pdfReader file.content with
  | .error exc => return .error ⟨.malformedPdf, some exc.str⟩
  | .ok reader => do
    if ← reader.isEncrypted then
      return .error ⟨.pdfEncrypted, none⟩
    let pageCount := (← reader.pages).length
    if pageCount > maxPdfPages then
      return .error ⟨.pdfTooManyPages, some (Str.ofNat pageCount ++
        text " pages exceeds limit of " ++ Str.ofNat maxPdfPages)⟩
    if hasDangerousActions reader then
      return .error ⟨.pdfContainsJavascript, none⟩
    return .ok { file with pageCount := some pageCount }

-- ---------------------------------------------------------------------------
-- Actions in a document
-- ---------------------------------------------------------------------------

/-- A dictionary that is a JavaScript or Launch action, or has a script or embedded files
    under one of the keys for these. -/
def IsAction (d : Entries) : Prop :=
  (∃ n ∈ [text "/JavaScript", text "/Launch"], (text "/S", .ok (.name n)) ∈ d) ∨
    ∃ key ∈ [text "/JS", text "/JavaScript", text "/EmbeddedFiles"], ∃ v, (key, v) ∈ d

/-- Some dictionary in the object, at any depth, is such an action. -/
inductive Carries : PdfObject → Prop
  | action {d : Entries} : IsAction d → Carries (.dict d)
  | entry {d : Entries} {key : Str} {o : PdfObject} :
      (key, .ok o) ∈ d → Carries o → Carries (.dict d)
  | item {items : List (Access PdfObject)} {o : PdfObject} :
      .ok o ∈ items → Carries o → Carries (.array items)

/-- The dictionary holds, under the key, an object that carries an action. -/
def CarriesAt (d : Entries) (key : Str) : Prop :=
  ∃ o, getObject d key = .ok (some o) ∧ Carries o

/-- An action in the catalog's `/OpenAction` or `/Names`, or in a page's `/AA`. -/
def PdfReader.CarriesAction (reader : PdfReader) : Prop :=
  (∃ catalog, getObject reader.trailer (text "/Root") = .ok (some (.dict catalog)) ∧
    (CarriesAt catalog (text "/OpenAction") ∨ CarriesAt catalog (text "/Names"))) ∨
  ∃ pages, reader.pages = .ok pages ∧ ∃ page, .ok page ∈ pages ∧ CarriesAt page (text "/AA")

/-- What acceptance should tell about the document. -/
structure Harmless (reader : PdfReader) : Prop where
  unencrypted : reader.isEncrypted = .ok false
  fewPages : ∃ pages, reader.pages = .ok pages ∧ pages.length ≤ maxPdfPages
  /-- No access of the walk raised. -/
  read : ∃ found, walk reader = .ok found
  noAction : ¬ reader.CarriesAction

/-- Validation answers, and it accepts only a harmless document. -/
structure FailsClosed (pdfReader : Bytes → Access PdfReader) (file : ValidatedFile) : Prop where
  answers : ∃ answer, validatePdf pdfReader file = .ok answer
  harmless : ∀ accepted, validatePdf pdfReader file = .ok (.ok accepted) →
    ∃ reader, pdfReader file.content = .ok reader ∧ Harmless reader

-- ---------------------------------------------------------------------------
-- The places of the walk
-- ---------------------------------------------------------------------------

/-- A reading before which every reading returns says yes. -/
def Stops (readings : List (Access Bool)) : Prop :=
  ∃ before after, readings = before ++ .ok true :: after ∧ ∀ r ∈ before, ∃ found, r = .ok found

/-- Every reading returns. -/
def Returns (readings : List (Access Bool)) : Prop := ∀ r ∈ readings, ∃ found, r = .ok found

/-- The places of a page: the triggers of its `/AA`, when that is a dictionary. -/
def pagePlaces (page : Access Entries) : List (Access Bool) :=
  match page.bind (getObject · (text "/AA")) with
  | .error exc => [.error exc]
  | .ok (some (.dict aa)) => aa.map fun trigger => trigger.2.map (checkDictForKeys scriptActionKeys)
  | .ok _ => []

/-- The places where the walk looks for its keys, in order, each with what reading it gives:
    the exception, or whether one of the keys is there. -/
def PdfReader.places (reader : PdfReader) : List (Access Bool) :=
  match getObject reader.trailer (text "/Root") with
  | .error exc => [.error exc]
  | .ok none => []
  | .ok (some catalog) =>
    [.ok (checkDictForKeys dangerousKeys catalog),
      (catalog.getObject (text "/OpenAction")).map (·.any (checkDictForKeys scriptActionKeys)),
      (catalog.getObject (text "/Names")).map (·.any (checkDictForKeys nameKeys))] ++
    match reader.pages with
    | .error exc => [.error exc]
    | .ok pages => pages.flatMap pagePlaces

/-- A parsed document is encrypted; or its pages can be counted, and then they are too many, or
    the walk meets one of its keys before an access raises, or no access raises and no action
    is there. -/
def PdfReader.Guarded (reader : PdfReader) : Prop :=
  reader.isEncrypted = .ok true ∨
    reader.isEncrypted = .ok false ∧ ∃ pages, reader.pages = .ok pages ∧
      (maxPdfPages < pages.length ∨ Stops reader.places ∨
        Returns reader.places ∧ ¬ reader.CarriesAction)

section
variable {readings more : List (Access Bool)}

@[simp] theorem Stops.nil : ¬ Stops [] := by
  simp [Stops]

@[simp] theorem Stops.error {exc : PdfError} : ¬ Stops (.error exc :: readings) := by
  rintro ⟨before, after, split, ok⟩
  cases before with
  | nil => cases split
  | cons first before =>
    obtain ⟨found, rfl⟩ := ok first (List.mem_cons_self ..)
    cases split

theorem Stops.ok {found : Bool} :
    Stops (.ok found :: readings) ↔ found = true ∨ Stops readings := by
  constructor
  · rintro ⟨before, after, split, ok⟩
    cases before with
    | nil =>
      cases split
      exact .inl rfl
    | cons first before =>
      cases split
      exact .inr ⟨before, after, rfl, fun r hr => ok r (List.mem_cons_of_mem _ hr)⟩
  · rintro (rfl | ⟨before, after, rfl, ok⟩)
    · exact ⟨[], readings, rfl, by simp⟩
    · refine ⟨.ok found :: before, after, rfl, ?_⟩
      simpa using ok

/-- The search through readings ends with yes when they stop. -/
theorem anyM_eq_true : readings.anyM id = .ok true ↔ Stops readings := by
  induction readings with
  | nil => simp [pure, Except.pure]
  | cons reading rest ih =>
    cases reading with
    | error exc => simp [List.anyM, bind, Except.bind]
    | ok found => cases found <;> simp [List.anyM, bind, Except.bind, pure, Except.pure, Stops.ok, ih]

/-- It raises unless they stop or all return. -/
theorem anyM_returns : (∃ found, readings.anyM id = .ok found) ↔ Stops readings ∨ Returns readings := by
  induction readings with
  | nil => simp [Returns, pure, Except.pure]
  | cons reading rest ih =>
    cases reading with
    | error exc => simp [List.anyM, bind, Except.bind, Returns]
    | ok found =>
      cases found
      · simpa [List.anyM, bind, Except.bind, Stops.ok, Returns] using ih
      · simp [List.anyM, bind, Except.bind, pure, Except.pure, Stops.ok]

theorem anyM_append :
    (readings ++ more).anyM id = (do if ← readings.anyM id then return true else more.anyM id) := by
  induction readings with
  | nil => rfl
  | cons reading rest ih =>
    cases reading with
    | error exc => rfl
    | ok found =>
      cases found
      · exact ih
      · rfl

theorem anyM_map {α : Type} {f : α → Access Bool} {l : List α} : (l.map f).anyM id = l.anyM f := by
  induction l with
  | nil => rfl
  | cons x rest ih => simp only [List.map_cons, List.anyM, id, ih]

theorem anyM_flatMap {α : Type} {f : α → List (Access Bool)} {l : List α} :
    (l.flatMap f).anyM id = l.anyM fun x => (f x).anyM id := by
  induction l with
  | nil => rfl
  | cons x rest ih =>
    rw [List.flatMap_cons, anyM_append, ih, List.anyM]
    congr 1
    funext found
    cases found <;> rfl

end

theorem checkPage_eq {page : Access Entries} : checkPage page = (pagePlaces page).anyM id := by
  cases page with
  | error exc => rfl
  | ok page =>
    simp only [checkPage, pagePlaces, bind, Except.bind]
    rcases getObject page (text "/AA") with exc | _ | (_ | _ | _ | aa)
    any_goals rfl
    exact anyM_map.symm

/-- The walk is the search through its places. -/
theorem walk_eq {reader : PdfReader} : walk reader = reader.places.anyM id := by
  unfold walk PdfReader.places
  rcases getObject reader.trailer (text "/Root") with exc | _ | catalog
  · rfl
  · rfl
  simp only [List.cons_append, List.nil_append, List.anyM, id, bind, Except.bind]
  cases checkDictForKeys dangerousKeys catalog
  case true => rfl
  cases catalog.getObject (text "/OpenAction") with
  | error exc => rfl
  | ok openAction =>
    simp only [Except.map]
    cases openAction.any (checkDictForKeys scriptActionKeys)
    case true => rfl
    cases catalog.getObject (text "/Names") with
    | error exc => rfl
    | ok names =>
      dsimp only
      cases names.any (checkDictForKeys nameKeys)
      case true => rfl
      cases reader.pages with
      | error exc => rfl
      | ok pages =>
        refine Eq.trans ?_ anyM_flatMap.symm
        exact congrArg (List.anyM · pages) (funext fun page => checkPage_eq)

-- ---------------------------------------------------------------------------
-- When validation fails closed
-- ---------------------------------------------------------------------------

theorem hasDangerousActions_iff {reader : PdfReader} :
    hasDangerousActions reader = true ↔ Stops reader.places := by
  rw [← anyM_eq_true, ← walk_eq, hasDangerousActions]
  cases walk reader <;> simp

section
variable {pdfReader : Bytes → Access PdfReader} {file : ValidatedFile} {reader : PdfReader}

/-- Validation answers a parsed document when its encryption can be read, and its pages if it
    is not encrypted. -/
theorem validatePdf_answers (parsed : pdfReader file.content = .ok reader) :
    (∃ answer, validatePdf pdfReader file = .ok answer) ↔ reader.isEncrypted = .ok true ∨
      reader.isEncrypted = .ok false ∧ ∃ pages, reader.pages = .ok pages := by
  simp only [validatePdf, parsed, bind, Except.bind]
  rcases reader.isEncrypted with exc | _ | _
  · simp
  · rcases reader.pages with exc | pages
    · simp
    · simp only [Bool.false_eq_true, if_false]
      split
      · simp [pure, Except.pure]
      · split <;> simp [pure, Except.pure]
  · simp [pure, Except.pure]

/-- It accepts an unencrypted document with few pages whose walk does not stop. -/
theorem validatePdf_accepts (parsed : pdfReader file.content = .ok reader) :
    (∃ accepted, validatePdf pdfReader file = .ok (.ok accepted)) ↔
      reader.isEncrypted = .ok false ∧
        (∃ pages, reader.pages = .ok pages ∧ pages.length ≤ maxPdfPages) ∧
        ¬ Stops reader.places := by
  simp only [validatePdf, parsed, bind, Except.bind, ← hasDangerousActions_iff]
  rcases reader.isEncrypted with exc | _ | _
  · simp
  · rcases reader.pages with exc | pages
    · simp
    · simp only [Bool.false_eq_true, if_false]
      split
      case isTrue many =>
        have few : ¬ pages.length ≤ maxPdfPages := Nat.not_le.2 many
        simp [pure, Except.pure, few]
      case isFalse few =>
        have few : pages.length ≤ maxPdfPages := Nat.le_of_not_gt few
        cases hasDangerousActions reader <;> simp [pure, Except.pure, few]
  · simp [pure, Except.pure]

/-- A document that does not parse is refused. -/
theorem validatePdf_unparsed {exc : PdfError} (unparsed : pdfReader file.content = .error exc) :
    FailsClosed pdfReader file := by
  have refused : validatePdf pdfReader file = .ok (.error ⟨.malformedPdf, some exc.str⟩) := by
    simp only [validatePdf, unparsed, pure, Except.pure]
  refine ⟨⟨_, refused⟩, fun accepted h => ?_⟩
  rw [refused] at h
  cases h

theorem failsClosed_of_parsed (parsed : pdfReader file.content = .ok reader) :
    FailsClosed pdfReader file ↔ reader.Guarded := by
  have answers := validatePdf_answers parsed
  have accepts := validatePdf_accepts parsed
  constructor
  · rintro ⟨answer, harmless⟩
    rcases answers.1 answer with encrypted | ⟨unencrypted, pages, counted⟩
    · exact .inl encrypted
    refine .inr ⟨unencrypted, pages, counted, ?_⟩
    rcases Nat.lt_or_ge maxPdfPages pages.length with many | few
    · exact .inl many
    by_cases stops : Stops reader.places
    · exact .inr (.inl stops)
    obtain ⟨accepted, h⟩ := accepts.2 ⟨unencrypted, ⟨pages, counted, few⟩, stops⟩
    obtain ⟨reader', parsed', safe⟩ := harmless accepted h
    cases parsed.symm.trans parsed'
    have read := safe.read
    rw [walk_eq, anyM_returns] at read
    exact .inr (.inr ⟨read.resolve_left stops, safe.noAction⟩)
  · intro guarded
    refine ⟨answers.2 ?_, fun accepted h => ⟨reader, parsed, ?_⟩⟩
    · rcases guarded with encrypted | ⟨unencrypted, pages, counted, _⟩
      · exact .inl encrypted
      · exact .inr ⟨unencrypted, pages, counted⟩
    · obtain ⟨unencrypted, ⟨pages, counted, few⟩, runs⟩ := accepts.1 ⟨accepted, h⟩
      rcases guarded with encrypted | ⟨-, pages', counted', many | stops | ⟨returns, noAction⟩⟩
      · cases unencrypted.symm.trans encrypted
      · cases counted.symm.trans counted'
        exact absurd few (Nat.not_le.2 many)
      · exact absurd stops runs
      · refine ⟨unencrypted, ⟨pages, counted, few⟩, ?_, noAction⟩
        rw [walk_eq]
        exact anyM_returns.2 (.inr returns)

end

/-- Validation fails closed on exactly the documents that do not parse or are guarded. -/
theorem validatePdf_failsClosed_iff {pdfReader : Bytes → Access PdfReader} {file : ValidatedFile} :
    FailsClosed pdfReader file ↔
      ∀ reader, pdfReader file.content = .ok reader → reader.Guarded := by
  cases parsed : pdfReader file.content with
  | error exc => exact iff_of_true (validatePdf_unparsed parsed) (fun _ h => by cases h)
  | ok reader =>
    rw [failsClosed_of_parsed parsed]
    exact ⟨fun guarded _ h => by cases h; exact guarded, fun h => h reader rfl⟩

/-- One page, and a catalog that opens with an action that starts a program. -/
def launchReader : PdfReader where
  isEncrypted := .ok false
  trailer := [(text "/Root", .ok (.dict [(text "/OpenAction",
    .ok (.dict [(text "/S", .ok (.name (text "/Launch"))), (text "/F", .ok .scalar)]))]))]
  pages := .ok [.ok []]

/-- A document that opens by starting a program is accepted. -/
theorem validatePdf_accepts_launch :
    ¬ ∀ (pdfReader : Bytes → Access PdfReader) (file : ValidatedFile),
      FailsClosed pdfReader file := by
  intro closed
  let parse : Bytes → Access PdfReader := fun _ => .ok launchReader
  let file : ValidatedFile :=
    ⟨FileValidator.pdfMagic, 5, FileValidator.pdfMime, FileValidator.pdfMime, none⟩
  have parsed : parse file.content = .ok launchReader := rfl
  have guarded := (failsClosed_of_parsed parsed).1 (closed parse file)
  have places : launchReader.places = [.ok false, .ok false, .ok false] := rfl
  rcases guarded with encrypted | ⟨-, pages, counted, many | stops | ⟨-, noAction⟩⟩
  · cases encrypted
  · cases counted
    revert many
    decide
  · simp [places, Stops.ok] at stops
  · refine noAction (.inl ⟨_, rfl, .inl ⟨_, rfl, .action (.inl ⟨text "/Launch", ?_, ?_⟩)⟩⟩)
    · simp
    · simp

end PdfValidator
