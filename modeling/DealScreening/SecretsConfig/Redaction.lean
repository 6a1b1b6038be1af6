-- SUMMARY: The redaction registry: the secret values it knows, and their replacement in texts and in the fields of a log record.
import DealScreening.Lib.Replace
import DealScreening.Python.Json
import DealScreening.Python.Utf8

/-!
# Redaction registry

Values are only ever added. A text is scanned for one value after the other, in the order
they were registered, each time as the scans before have left it.
-/

open Python

structure RedactionRegistry where
  secretNames : List Str
  knownValues : List Str
  valueHashes : List String
  deriving DecidableEq, Repr

namespace RedactionRegistry

def empty : RedactionRegistry := ⟨[], [], []⟩

/-- `PLACEHOLDER`. -/
def placeholder : Str := text "[REDACTED]"

def registerKey (name : Str) (r : RedactionRegistry) : RedactionRegistry :=
  if name ∈ r.secretNames then r else { r with secretNames := r.secretNames ++ [name] }

/-- `register_value`, for the bytes that the value is encoded as. -/
def add (value : Str) (bytes : Bytes) (r : RedactionRegistry) : RedactionRegistry :=
  let h := Hashlib.sha256 bytes
  if h ∈ r.valueHashes then r
  else { r with knownValues := r.knownValues ++ [value], valueHashes := r.valueHashes ++ [h] }

def registerValue (value : Str) (r : RedactionRegistry) : Except Error RedactionRegistry :=
  value.encode.map fun bytes => r.add value bytes

/-- One round of the loop in `redact`. -/
def redactValue (s value : Str) : Str :=
  if value ≠ [] ∧ Str.hasSubstring value s = true then Replacing.replace id value placeholder s else s

def redact (r : RedactionRegistry) (s : Str) : Str := r.knownValues.foldl redactValue s

/-- The keys whose values are blanked whatever is registered. -/
def blockedKeys : List Str :=
  ["password", "token", "secret", "authorization", "cookie", "api_key"].map text

def isBlocked [Runtime] (r : RedactionRegistry) (key : Str) : Bool :=
  Str.lower key ∈ r.secretNames ∨ Str.lower key ∈ blockedKeys

mutual

/-- The value under a key that is not blocked. -/
def redactItem [Runtime] (r : RedactionRegistry) : Json → Json
  | .str s => .str (r.redact s)
  | .dict entries => .dict (redactDict r entries)
  | v => v

def redactDict [Runtime] (r : RedactionRegistry) : List (Str × Json) → List (Str × Json)
  | [] => []
  | (key, v) :: rest =>
    (key, if r.isBlocked key = true then .str placeholder else redactItem r v) :: redactDict r rest

end

/-- The hashes are those of the values. -/
def HashesKnown (r : RedactionRegistry) : Prop :=
  ∀ h ∈ r.valueHashes, ∃ v ∈ r.knownValues, ∃ bytes, v.encode = .ok bytes ∧ Hashlib.sha256 bytes = h

/-- Every value is there once, with its hash. -/
structure Deduplicated (r : RedactionRegistry) : Prop where
  nodup : r.knownValues.Nodup
  hashed : ∀ v ∈ r.knownValues, ∀ bytes, v.encode = .ok bytes → Hashlib.sha256 bytes ∈ r.valueHashes

section
variable {r : RedactionRegistry} {name value : Str} {bytes : Bytes}

theorem knownValues_registerKey : (r.registerKey name).knownValues = r.knownValues := by
  unfold registerKey
  split <;> rfl

theorem valueHashes_registerKey : (r.registerKey name).valueHashes = r.valueHashes := by
  unfold registerKey
  split <;> rfl

theorem knownValues_subset_add : r.knownValues ⊆ (r.add value bytes).knownValues := by
  unfold add
  dsimp only
  split
  · exact List.Subset.refl _
  · exact List.subset_append_left ..

theorem mem_knownValues_add {known : Str} (h : known ∈ (r.add value bytes).knownValues) :
    known ∈ r.knownValues ∨ known = value := by
  unfold add at h
  dsimp only at h
  split at h
  · exact .inl h
  · simpa using h

theorem valueHashes_subset_add : r.valueHashes ⊆ (r.add value bytes).valueHashes := by
  unfold add
  dsimp only
  split
  · exact List.Subset.refl _
  · exact List.subset_append_left ..

theorem mem_valueHashes_add : Hashlib.sha256 bytes ∈ (r.add value bytes).valueHashes := by
  unfold add
  dsimp only
  split
  · assumption
  · simp

theorem HashesKnown.add (h : r.HashesKnown) (hencoded : value.encode = .ok bytes) :
    (r.add value bytes).HashesKnown := by
  unfold RedactionRegistry.add
  dsimp only
  split
  · exact h
  · intro hash hmem
    rcases List.mem_append.mp hmem with hold | hnew
    · obtain ⟨v, hv, hbytes⟩ := h hash hold
      exact ⟨v, List.mem_append_left _ hv, hbytes⟩
    · cases List.mem_singleton.mp hnew
      exact ⟨value, by simp, bytes, hencoded, rfl⟩

theorem Deduplicated.add (h : r.Deduplicated) (hencoded : value.encode = .ok bytes) :
    (r.add value bytes).Deduplicated := by
  unfold RedactionRegistry.add
  dsimp only
  split
  · exact h
  · rename_i hnew
    constructor
    · refine List.nodup_append.mpr ⟨h.nodup, List.pairwise_singleton _ value, fun v hv w hw heq => ?_⟩
      cases List.mem_singleton.mp hw
      exact hnew (h.hashed value (heq ▸ hv) bytes hencoded)
    · intro v hv bytes' hbytes'
      rcases List.mem_append.mp hv with hold | hself
      · exact List.mem_append_left _ (h.hashed v hold bytes' hbytes')
      · cases List.mem_singleton.mp hself
        cases hencoded.symm.trans hbytes'
        exact List.mem_append_right _ (List.mem_singleton.mpr rfl)

end

end RedactionRegistry
