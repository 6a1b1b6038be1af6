-- SUMMARY: Where secrets come from: the `.env` file with its fallback to the environment, and the dictionary that tests seed.
import DealScreening.Python.OrderedDict
import DealScreening.Python.Utf8

/-!
# Secret providers

A provider keeps what it has once read. Its files and its store change from outside, by
edits; `fetch` reads the file again.
-/

open Python

/-- `CANONICAL_SECRET_NAMES`. -/
def canonicalSecretNames : List Str :=
  ["openai_api_key", "database_password", "auth_signing_key_current", "auth_signing_key_previous",
    "rate_limit_store_password", "auth_min_iat_watermark"].map text

/-- `_value` is the UTF-8 of the string that `reveal_str` gives back. -/
structure SecretValue where
  name : Str
  version : Str
  value : Str
  bytes : Bytes
  encoded : value.encode = .ok bytes
  deriving DecidableEq

/-- What a provider raises. -/
inductive ProviderError where
  | unknownSecret (name : Str)
  | unreadableFile
  | unencodable
  deriving DecidableEq, Repr

/-- `SecretValue(..., _value=value.encode("utf-8"))`. -/
def SecretValue.make (name version value : Str) : Except ProviderError SecretValue :=
  match h : value.encode with
  | .ok bytes => .ok ⟨name, version, value, bytes, h⟩
  | .error _ => .error .unencodable

/-- `{name: SecretValue(...)}` for the entries of a dictionary. -/
def loadEach (version : Str → Str) :
    List (Str × Str) → OrderedDict Str SecretValue → Except ProviderError (OrderedDict Str SecretValue)
  | [], secrets => .ok secrets
  | (name, value) :: entries, secrets => do
    let sv ← SecretValue.make name (version name) value
    loadEach version entries (secrets.set name sv)

-- ---------------------------------------------------------------------------
-- The `.env` file
-- ---------------------------------------------------------------------------

/-- What is at the path of the `.env` file. -/
inductive EnvFile where
  | absent
  | unreadable
  | content (s : Str)
  deriving DecidableEq, Repr

/-- `ENV_FILE_KEY_MAP`. -/
def envFileKeyMap : List (Str × Str) :=
  [("openai_api_key", "OPENAI_API_KEY"), ("database_password", "DATABASE_PASSWORD"),
    ("auth_signing_key_current", "AUTH_SIGNING_KEY_CURRENT"),
    ("auth_signing_key_previous", "AUTH_SIGNING_KEY_PREVIOUS"),
    ("rate_limit_store_password", "RATE_LIMIT_STORE_PASSWORD"),
    ("auth_min_iat_watermark", "AUTH_MIN_IAT_WATERMARK")].map fun entry => (text entry.1, text entry.2)

/-- `ENV_FILE_KEY_MAP.get(name, name.upper())`. Every canonical name is in the map. -/
def envKey (name : Str) : Str :=
  ((envFileKeyMap.find? fun entry => entry.1 = name).map Prod.snd).getD name

def isLineBreak (c : Nat) : Bool :=
  (0x0A ≤ c && c ≤ 0x0D) || (0x1C ≤ c && c ≤ 0x1E) || c == 0x85 || c == 0x2028 || c == 0x2029

/-- `s.splitlines()`, with what has been read of the current line. -/
def splitLines (line : Str) : Str → List Str
  | [] => if line = [] then [] else [line]
  | 0x0D :: 0x0A :: s => line :: splitLines [] s
  | c :: s => if isLineBreak c = true then line :: splitLines [] s else splitLines (line ++ [c]) s

/-- The key and the value of a line that has them. -/
def parseLine (line : Str) : Option (Str × Str) :=
  let line := Str.strip line
  if line = [] ∨ line.head? = some 0x23 then none
  else if 0x3D ∈ line then
    let key := line.takeWhile (· ≠ 0x3D)
    some (Str.strip key, Str.strip (line.drop (key.length + 1)))
  else none

/-- The lines of a file that set a key. -/
def EnvFile.assignments (s : Str) : List (Str × Str) := (splitLines [] s).filterMap parseLine

structure EnvFileProvider where
  file : EnvFile
  environ : List (Str × Str)
  values : OrderedDict Str Str

namespace EnvFileProvider

def environGet (p : EnvFileProvider) (key : Str) : Option Str :=
  (p.environ.find? fun entry => entry.1 = key).map Prod.snd

/-- `self._values[key] = value` for every line. -/
def assign (values : OrderedDict Str Str) (lines : List (Str × Str)) : OrderedDict Str Str :=
  lines.foldl (fun values line => values.set line.1 line.2) values

/-- The variables of the environment whose keys the file has never set. -/
def fallBack (environGet : Str → Option Str) (values : OrderedDict Str Str) (keys : List Str) :
    OrderedDict Str Str :=
  keys.foldl (fun values key =>
    match environGet key with
    | some value => if key ∈ values.keys then values else values.set key value
    | none => values) values

/-- `_load_file`. -/
def loadFile (p : EnvFileProvider) : Except ProviderError EnvFileProvider :=
  let keys := envFileKeyMap.map Prod.snd
  match p.file with
  | .unreadable => .error .unreadableFile
  | .absent => .ok { p with values := fallBack p.environGet p.values keys }
  | .content s =>
    .ok { p with values := fallBack p.environGet (assign p.values (EnvFile.assignments s)) keys }

def envVersion : Str := text "env-v1"

/-- The secrets with a value that is not empty; `names` is the order of the frozenset. -/
def loadAll (names : List Str) (p : EnvFileProvider) :
    Except ProviderError (OrderedDict Str SecretValue) :=
  let found := names.filterMap fun name =>
    match p.values.get (envKey name) with
    | some raw => if raw = [] then none else some (name, raw)
    | none => none
  loadEach (fun _ => envVersion) found OrderedDict.empty

/-- The secret as the values have it. -/
def secretOf (p : EnvFileProvider) (name : Str) : Except ProviderError (Option SecretValue) :=
  match p.values.get (envKey name) with
  | some raw => if raw = [] then .ok none else (SecretValue.make name envVersion raw).map some
  | none => .ok none

def fetch (name : Str) (p : EnvFileProvider) :
    Except ProviderError (Option SecretValue) × EnvFileProvider :=
  if name ∉ canonicalSecretNames then (.error (.unknownSecret name), p)
  else match p.loadFile with
    | .error e => (.error e, p)
    | .ok p' => (p'.secretOf name, p')

end EnvFileProvider

-- ---------------------------------------------------------------------------
-- The dictionary of the tests
-- ---------------------------------------------------------------------------

/-- `_store`: values with their versions. -/
structure MemoryProvider where
  store : OrderedDict Str (Str × Str)

namespace MemoryProvider

def set (name value version : Str) (p : MemoryProvider) : MemoryProvider :=
  ⟨p.store.set name (value, version)⟩

def loadAll (p : MemoryProvider) : Except ProviderError (OrderedDict Str SecretValue) :=
  loadEach (fun name => ((p.store.get name).map Prod.snd).getD [])
    (p.store.entries.map fun entry => (entry.1, entry.2.1)) OrderedDict.empty

def fetch (name : Str) (p : MemoryProvider) : Except ProviderError (Option SecretValue) :=
  match p.store.get name with
  | none => .ok none
  | some (value, version) => (SecretValue.make name version value).map some

end MemoryProvider

-- ---------------------------------------------------------------------------
-- Either of them
-- ---------------------------------------------------------------------------

inductive SecretsProvider where
  | envFile (p : EnvFileProvider)
  | memory (p : MemoryProvider)

/-- What can happen to a provider from outside. -/
inductive ProviderEdit where
  | set (name value version : Str)
  | file (file : EnvFile)
  | environ (environ : List (Str × Str))

namespace SecretsProvider

def edit : ProviderEdit → SecretsProvider → SecretsProvider
  | .set name value version, .memory p => .memory (p.set name value version)
  | .file file, .envFile p => .envFile { p with file }
  | .environ environ, .envFile p => .envFile { p with environ }
  | _, p => p

def loadAll (names : List Str) : SecretsProvider → Except ProviderError (OrderedDict Str SecretValue)
  | .envFile p => p.loadAll names
  | .memory p => p.loadAll

def fetch (name : Str) : SecretsProvider → Except ProviderError (Option SecretValue) × SecretsProvider
  | .envFile p =>
    let (found, p') := p.fetch name
    (found, .envFile p')
  | .memory p => (p.fetch name, .memory p)

/-- The provider's current value of a secret. -/
def current (p : SecretsProvider) (name : Str) : Except ProviderError (Option SecretValue) :=
  (p.fetch name).1

end SecretsProvider

-- ---------------------------------------------------------------------------
-- Reading the file again changes nothing
-- ---------------------------------------------------------------------------

namespace EnvFileProvider

/-- The value that the last line for a key gives it. -/
def assigned (key : Str) : List (Str × Str) → Option Str
  | [] => none
  | line :: lines => (assigned key lines).or (if key = line.1 then some line.2 else none)

theorem get_assign {values : OrderedDict Str Str} {lines : List (Str × Str)} {key : Str} :
    (assign values lines).get key = (assigned key lines).or (values.get key) := by
  unfold assign
  induction lines generalizing values with
  | nil => rfl
  | cons line lines ih =>
    rw [List.foldl_cons, ih, OrderedDict.get_set, assigned]
    cases assigned key lines with
    | some value => rfl
    | none => by_cases hkey : key = line.1 <;> simp [hkey]

theorem get_fallBack {environGet : Str → Option Str} {values : OrderedDict Str Str}
    {keys : List Str} {key : Str} :
    (fallBack environGet values keys).get key =
      (values.get key).or (if key ∈ keys then environGet key else none) := by
  unfold fallBack
  induction keys generalizing values with
  | nil => simp
  | cons k keys ih =>
    rw [List.foldl_cons, ih]
    cases henv : environGet k with
    | none =>
      by_cases hkey : key = k
      · subst hkey
        simp [henv]
      · simp [hkey]
    | some value =>
      by_cases hmem : k ∈ values.keys
      · by_cases hkey : key = k
        · subst hkey
          cases hget : values.get key with
          | none => exact absurd hmem (OrderedDict.get_eq_none.mp hget)
          | some found => simp [hmem, hget]
        · simp [hmem, hkey]
      · by_cases hkey : key = k
        · subst hkey
          simp [hmem, OrderedDict.get_set, OrderedDict.get_eq_none.mpr hmem, henv]
        · simp [hmem, hkey, OrderedDict.get_set]

/-- What the file has for a key. -/
def fileValue (p : EnvFileProvider) (key : Str) : Option Str :=
  match p.file with
  | .content s => assigned key (EnvFile.assignments s)
  | _ => none

/-- The file comes first, then what was there before, then the environment. -/
theorem get_loadFile {p p' : EnvFileProvider} (h : p.loadFile = .ok p') (key : Str) :
    p'.values.get key = ((p.fileValue key).or (p.values.get key)).or
      (if key ∈ envFileKeyMap.map Prod.snd then p.environGet key else none) := by
  unfold loadFile at h
  unfold fileValue
  cases hfile : p.file with
  | unreadable =>
    rw [hfile] at h
    cases h
  | absent =>
    rw [hfile] at h
    cases h
    exact get_fallBack
  | content s =>
    rw [hfile] at h
    cases h
    exact get_fallBack.trans (by rw [get_assign])

/-- Reading again finds the same source. -/
theorem loadFile_again {p p' : EnvFileProvider} (h : p.loadFile = .ok p') :
    p'.file = p.file ∧ p'.environ = p.environ ∧ ∃ p'', p'.loadFile = .ok p'' := by
  unfold loadFile at h
  cases hfile : p.file with
  | unreadable =>
    rw [hfile] at h
    cases h
  | absent =>
    rw [hfile] at h
    cases h
    exact ⟨rfl, rfl, _, rfl⟩
  | content s =>
    rw [hfile] at h
    cases h
    exact ⟨rfl, rfl, _, rfl⟩

theorem get_loadFile_again {p p' p'' : EnvFileProvider} (h : p.loadFile = .ok p')
    (h' : p'.loadFile = .ok p'') (key : Str) : p''.values.get key = p'.values.get key := by
  obtain ⟨hfile, henviron, -⟩ := loadFile_again h
  have hfileValue : p'.fileValue key = p.fileValue key := by rw [fileValue, fileValue, hfile]
  have henvironGet : p'.environGet key = p.environGet key := by
    rw [environGet, environGet, henviron]
  rw [get_loadFile h', get_loadFile h, hfileValue, henvironGet]
  cases p.fileValue key <;> cases p.values.get key <;> simp

/-- A secret is what the file has once it has been read. -/
theorem fetch_eq {p p' : EnvFileProvider} {name : Str} (hname : name ∈ canonicalSecretNames)
    (h : p.loadFile = .ok p') : p.fetch name = (p'.secretOf name, p') := by
  rw [fetch, if_neg (not_not.mpr hname), h]

theorem fetch_snd (p : EnvFileProvider) (name : Str) :
    (p.fetch name).2 = p ∨ p.loadFile = .ok (p.fetch name).2 := by
  unfold fetch
  split
  · exact .inl rfl
  · cases hload : p.loadFile with
    | error e => exact .inl rfl
    | ok p' => exact .inr rfl

theorem fetch_fst_again {p p' : EnvFileProvider} (h : p.loadFile = .ok p') (name : Str) :
    (p'.fetch name).1 = (p.fetch name).1 := by
  by_cases hname : name ∈ canonicalSecretNames
  · obtain ⟨-, -, p'', h'⟩ := loadFile_again h
    rw [fetch_eq hname h', fetch_eq hname h, secretOf, secretOf, get_loadFile_again h h']
  · rw [fetch, fetch, if_pos hname, if_pos hname]

end EnvFileProvider

namespace SecretsProvider

/-- A fetch leaves every current value as it is. -/
theorem current_fetch (p : SecretsProvider) (name other : Str) :
    (p.fetch name).2.current other = p.current other := by
  cases p with
  | memory p => rfl
  | envFile p =>
    change ((p.fetch name).2.fetch other).1 = (p.fetch other).1
    obtain hsame | hload := p.fetch_snd name
    · rw [hsame]
    · exact EnvFileProvider.fetch_fst_again hload other

end SecretsProvider
