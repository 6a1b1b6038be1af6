-- SUMMARY: Instants, identifiers and text as the tables hold them.
import DealScreening.Python.Text
import Mathlib.Data.Int.Notation

/-- An instant, or the length of an interval, in microseconds. -/
abbrev Time := Int

namespace Time

def seconds (n : Int) : Time := n * 1000000

/-- The whole seconds of a time. -/
def toSeconds (t : Time) : Int := t / 1000000

theorem seconds_toSeconds_le (t : Time) : seconds (toSeconds t) ≤ t :=
  Int.ediv_mul_le t (by decide)

theorem lt_seconds_toSeconds_add (t : Time) {n : Int} (h : 0 < n) :
    t < seconds (toSeconds (t + seconds n)) := by
  have key : ∀ t n : Int, 0 < n → t < (t + n * 1000000) / 1000000 * 1000000 := by
    intro t n h
    omega
  exact key t n h

end Time

/-- A UUID, as its 128-bit number. -/
abbrev Uuid := Nat

/-- `str(u)`: the 32 hexadecimal digits in five groups. -/
def Uuid.str (u : Uuid) : String :=
  let digits := (Python.Str.hex 32 u).map Char.ofNat
  let group (start length : Nat) : String := String.ofList ((digits.drop start).take length)
  group 0 8 ++ "-" ++ group 8 4 ++ "-" ++ group 12 4 ++ "-" ++ group 16 4 ++ "-" ++ group 20 12

theorem Uuid.mem_str {u : Uuid} {c : Nat} (h : c ∈ Python.text (Uuid.str u)) :
    c = 0x2D ∨ ∃ k < 16, c = (Char.ofNat (Python.Str.hexDigit k)).toNat := by
  have hgroup : ∀ start length : Nat,
      c ∈ Python.text (String.ofList ((((Python.Str.hex 32 u).map Char.ofNat).drop start).take length)) →
      ∃ k < 16, c = (Char.ofNat (Python.Str.hexDigit k)).toNat := by
    intro start length hc
    rw [Python.text, String.toList_ofList] at hc
    obtain ⟨d, hd, rfl⟩ := List.mem_map.mp hc
    obtain ⟨n, hn, rfl⟩ := List.mem_map.mp (List.mem_of_mem_drop (List.mem_of_mem_take hd))
    obtain ⟨k, hk, rfl⟩ := Python.mem_hex hn
    exact ⟨k, hk, rfl⟩
  have hdash : c ∈ Python.text "-" → c = 0x2D := List.mem_singleton.mp
  simp only [Uuid.str, Python.text_append, List.mem_append] at h
  rcases h with ((((((((h | h) | h) | h) | h) | h) | h) | h) | h)
  · exact .inr (hgroup _ _ h)
  · exact .inl (hdash h)
  · exact .inr (hgroup _ _ h)
  · exact .inl (hdash h)
  · exact .inr (hgroup _ _ h)
  · exact .inl (hdash h)
  · exact .inr (hgroup _ _ h)
  · exact .inl (hdash h)
  · exact .inr (hgroup _ _ h)

/-- `str(u)` is a part of a path. -/
theorem Uuid.slash_notMem_str (u : Uuid) : 0x2F ∉ Python.text (Uuid.str u) := by
  intro h
  rcases Uuid.mem_str h with h | ⟨k, hk, h⟩
  · cases h
  · have hdigits : ∀ k < 16, 0x2F ≠ (Char.ofNat (Python.Str.hexDigit k)).toNat := by decide
    exact hdigits k hk h

theorem Uuid.dash_mem_str (u : Uuid) : 0x2D ∈ Python.text (Uuid.str u) := by
  simp [Uuid.str, Python.text]

/-- The texts of two UUIDs differ. -/
theorem Uuid.str_injective {u v : Uuid} (hu : u < 2 ^ 128) (hv : v < 2 ^ 128)
    (h : Uuid.str u = Uuid.str v) : u = v := by
  have hlength : ∀ u : Uuid, ((Python.Str.hex 32 u).map Char.ofNat).length = 32 := by
    intro u
    rw [List.length_map, Python.length_hex]
  have hdigits : (Python.Str.hex 32 u).map Char.ofNat = (Python.Str.hex 32 v).map Char.ofNat := by
    replace h := congrArg String.toList h
    simp only [Uuid.str, String.toList_append, String.toList_ofList] at h
    have hu := hlength u
    have hv := hlength v
    generalize (Python.Str.hex 32 u).map Char.ofNat = ds at *
    generalize (Python.Str.hex 32 v).map Char.ofNat = es at *
    have hgroup : ∀ start length : Nat, ((ds.drop start).take length).length =
        ((es.drop start).take length).length := by
      intro start length
      simp [hu, hv]
    obtain ⟨h, h5⟩ := List.append_inj' h (hgroup 20 12)
    obtain ⟨h, -⟩ := List.append_inj' h rfl
    obtain ⟨h, h4⟩ := List.append_inj' h (hgroup 16 4)
    obtain ⟨h, -⟩ := List.append_inj' h rfl
    obtain ⟨h, h3⟩ := List.append_inj' h (hgroup 12 4)
    obtain ⟨h, -⟩ := List.append_inj' h rfl
    obtain ⟨h, h2⟩ := List.append_inj' h (hgroup 8 4)
    obtain ⟨h1, -⟩ := List.append_inj' h rfl
    have hgroups : ∀ ds : List Char, ds.length = 32 →
        ds = (ds.drop 0).take 8 ++ (ds.drop 8).take 4 ++ (ds.drop 12).take 4 ++
          (ds.drop 16).take 4 ++ (ds.drop 20).take 12 := by
      intro ds hlength
      calc
        ds = ds.take (8 + 4 + 4 + 4 + 12) := (List.take_of_length_le (by omega)).symm
        _ = _ := by simp only [List.take_add, List.drop_zero]
    rw [hgroups ds hu, hgroups es hv, h1, h2, h3, h4, h5]
  have hback : ∀ n, ((Python.Str.hex 32 n).map Char.ofNat).map Char.toNat = Python.Str.hex 32 n := by
    intro n
    have hchar : ∀ k < 16, (Char.ofNat (Python.Str.hexDigit k)).toNat = Python.Str.hexDigit k := by
      decide
    rw [List.map_map]
    conv_rhs => rw [← List.map_id (Python.Str.hex 32 n)]
    refine List.map_congr_left fun c hc => ?_
    obtain ⟨k, hk, rfl⟩ := Python.mem_hex hc
    exact hchar k hk
  refine @Python.hex_injective 32 u v (by omega) (by omega) ?_
  rw [← hback u, ← hback v, hdigits]

/-- Text that PostgreSQL takes: UTF-8, so no surrogate, and no NUL. -/
def Storable (s : Python.Str) : Prop := ∀ c ∈ s, c ≠ 0 ∧ Python.isSurrogate c = false

instance (s : Python.Str) : Decidable (Storable s) := inferInstanceAs (Decidable (∀ c ∈ s, _))

/-- The value of a text column. -/
structure PgText where
  val : Python.Str
  storable : Storable val
  deriving DecidableEq

namespace PgText

/-- The column takes the string or refuses the row. -/
def ofStr (s : Python.Str) : Option PgText := if h : Storable s then some ⟨s, h⟩ else none

theorem ofStr_eq_some {s : Python.Str} {t : PgText} : ofStr s = some t ↔ t.val = s := by
  unfold ofStr
  split
  · rename_i h
    simp only [Option.some.injEq]
    constructor
    · rintro rfl
      rfl
    · intro heq
      cases t
      simp_all
  · rename_i h
    constructor
    · nofun
    · rintro rfl
      exact absurd t.storable h

/-- A `VARCHAR(limit)` column. Beyond the limit PostgreSQL would cut off spaces; no
    caller passes text that ends in them. -/
def varchar (limit : Nat) (s : Python.Str) : Option PgText :=
  if s.length ≤ limit then ofStr s else none

/-- A column that also takes `NULL`. -/
def nullable (column : Python.Str → Option PgText) : Option Python.Str → Option (Option PgText)
  | none => some none
  | some s => (column s).map some

/-- A text column that holds a literal. -/
def ofLiteral (s : String) (h : Storable (Python.text s)) : PgText := ⟨Python.text s, h⟩

theorem varchar_val {limit : Nat} {s : Python.Str} {t : PgText} (h : varchar limit s = some t) :
    t.val = s := by
  unfold varchar at h
  split at h
  · exact ofStr_eq_some.mp h
  · cases h

end PgText

section
variable {s t : Python.Str}

@[simp] theorem storable_append : Storable (s ++ t) ↔ Storable s ∧ Storable t := by
  simp only [Storable, List.mem_append]
  constructor
  · intro h
    exact ⟨fun c hc => h c (.inl hc), fun c hc => h c (.inr hc)⟩
  · rintro ⟨hs, ht⟩ c (hc | hc)
    · exact hs c hc
    · exact ht c hc

theorem Python.Clean.storable (h : Python.Clean s) : Storable s := by
  intro c hc
  obtain ⟨hlow, hsur⟩ := h c hc
  exact ⟨by omega, hsur⟩

end
