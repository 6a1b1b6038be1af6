-- SUMMARY: Replacing the occurrences of a list in another from left to right, for lists whose elements carry more than is compared.
import Mathlib.Data.List.Infix

/-!
# Replacing occurrences

The scan is structural: after an occurrence the rest of it is skipped element by element.
The elements of the text may carry marks, which only the result shows.
-/

namespace Replacing

variable {α β : Type} [DecidableEq α]

/-- The scan, with so many elements of an occurrence still to be skipped. -/
def scan (key : β → α) (old : List α) (new : List β) : Nat → List β → List β
  | _, [] => []
  | skip + 1, _ :: s => scan key old new skip s
  | 0, b :: s =>
    if old <+: (b :: s).map key then new ++ scan key old new (old.length - 1) s
    else b :: scan key old new 0 s

/-- `s.replace(old, new)`, for `old` that is not empty. -/
def replace (key : β → α) (old : List α) (new : List β) (s : List β) : List β :=
  scan key old new 0 s

/-- Forgetting the marks before or after the scan is the same. -/
theorem map_scan (key : β → α) (old : List α) (new s : List β) (skip : Nat) :
    (scan key old new skip s).map key = scan id old (new.map key) skip (s.map key) := by
  induction s generalizing skip with
  | nil => cases skip <;> rfl
  | cons b s ih =>
    cases skip with
    | succ skip => exact ih skip
    | zero =>
      simp only [scan, List.map_cons, List.map_id, id]
      split
      · rw [List.map_append, ih]
      · rw [List.map_cons, ih]

theorem map_replace (key : β → α) (old : List α) (new s : List β) :
    (replace key old new s).map key = replace id old (new.map key) (s.map key) :=
  map_scan key old new s 0

theorem scan_skip (key : β → α) (old : List α) (new : List β) (bs s : List β) :
    scan key old new bs.length (bs ++ s) = scan key old new 0 s := by
  induction bs with
  | nil => rfl
  | cons b bs ih => exact ih

/-- An occurrence at the front is replaced, and the scan goes on after it. -/
theorem replace_append {key : β → α} {old : List α} {new bs s : List β} (hold : bs.map key = old)
    (hne : old ≠ []) : replace key old new (bs ++ s) = new ++ replace key old new s := by
  cases bs with
  | nil => exact absurd hold.symm hne
  | cons b bs =>
    have hmatch : old <+: (b :: (bs ++ s)).map key := by
      rw [← hold, ← List.cons_append, List.map_append]
      exact List.prefix_append ..
    have hlength : old.length - 1 = bs.length := by rw [← hold]; simp
    rw [replace, List.cons_append, scan, if_pos hmatch, hlength, scan_skip, replace]

/-- The scan walks over elements at which no occurrence begins. -/
theorem replace_append_of_no_match {key : β → α} {old : List α} {new bs s : List β}
    (h : ∀ k < bs.length, ¬ old <+: ((bs ++ s).drop k).map key) :
    replace key old new (bs ++ s) = bs ++ replace key old new s := by
  induction bs with
  | nil => rfl
  | cons b bs ih =>
    have hb : ¬ old <+: (b :: (bs ++ s)).map key := h 0 (by simp)
    rw [replace, List.cons_append, scan, if_neg hb, List.cons_append]
    refine congrArg (b :: ·) (ih fun k hk => ?_)
    exact h (k + 1) (by simpa using hk)

/-- Without an occurrence nothing is replaced. -/
theorem replace_of_absent {key : β → α} {old : List α} {new s : List β}
    (h : ¬ old <:+: s.map key) : replace key old new s = s := by
  have hclear : ∀ k < s.length, ¬ old <+: ((s ++ []).drop k).map key := by
    intro k _ hk
    rw [List.append_nil, List.map_drop] at hk
    exact h (hk.isInfix.trans (List.drop_suffix k _).isInfix)
  have hscan : replace key old new (s ++ []) = s ++ replace key old new [] :=
    replace_append_of_no_match hclear
  rwa [List.append_nil, show replace key old new ([] : List β) = [] from rfl, List.append_nil] at hscan

/-- Replacing by marks that are filled in afterwards is replacing at once. -/
theorem flatMap_scan {key : β → α} {old : List α} {new : List β} {mark : α → β} {fill : β → List α}
    (hkey : ∀ a, key (mark a) = a) (hfill : ∀ a, fill (mark a) = [a]) (skip : Nat) (s : List α) :
    (scan key old new skip (s.map mark)).flatMap fill = scan id old (new.flatMap fill) skip s := by
  induction s generalizing skip with
  | nil => cases skip <;> rfl
  | cons a s ih =>
    cases skip with
    | succ skip => exact ih skip
    | zero =>
      have hmap : ((a :: s).map mark).map key = (a :: s).map id := by
        rw [List.map_map]
        exact List.map_congr_left fun a _ => hkey a
      simp only [List.map_cons, scan] at hmap ⊢
      rw [hmap]
      split
      · rw [List.flatMap_append, ih]
      · rw [List.flatMap_cons, hfill, ih, List.singleton_append]

/-- What replaces an occurrence is in the result. -/
theorem mem_replace {key : β → α} {old : List α} {new s : List β} {b : β} (hb : b ∈ new)
    (hne : old ≠ []) (h : old <:+: s.map key) : b ∈ replace key old new s := by
  induction s with
  | nil => exact absurd (List.eq_nil_of_infix_nil h) hne
  | cons c s ih =>
    rw [replace, scan]
    split
    · exact List.mem_append_left _ hb
    · rename_i hfront
      exact List.mem_cons_of_mem _ (ih ((List.infix_cons_iff.1 h).resolve_left hfront))

-- ---------------------------------------------------------------------------
-- Texts cut into pieces
-- ---------------------------------------------------------------------------

/-- A piece of a text: one element, or an occurrence of a value. -/
inductive Piece (β : Type) where
  | plain (b : β)
  | secret (bs : List β)

namespace Piece

def str : Piece β → List β
  | plain b => [b]
  | secret bs => bs

/-- The piece once the values `done` have been replaced. -/
def after (key : β → α) (new : List β) (done : List (List α)) : Piece β → List β
  | plain b => [b]
  | secret bs => if bs.map key ∈ done then new else bs

end Piece

/-- The piece at a position of the text. -/
def pieceAt : List (Piece β) → Nat → Option (Piece β)
  | [], _ => none
  | p :: pieces, i => if i < p.str.length then some p else pieceAt pieces (i - p.str.length)

/-- One of two texts goes on as the other. -/
def Comparable (a b : List α) : Prop := a <+: b ∨ b <+: a

instance (a b : List α) : Decidable (Comparable a b) := inferInstanceAs (Decidable (_ ∨ _))

/-- Occurrences of the two never overlap, unless they are one. -/
structure Apart (a b : List α) : Prop where
  left : ∀ k < a.length, 0 < k → ¬ Comparable (a.drop k) b
  right : ∀ k < b.length, 0 < k → ¬ Comparable a (b.drop k)
  same : Comparable a b → a = b

instance (a b : List α) : Decidable (Apart a b) :=
  decidable_of_iff ((∀ k < a.length, 0 < k → ¬ Comparable (a.drop k) b) ∧
      (∀ k < b.length, 0 < k → ¬ Comparable a (b.drop k)) ∧ (Comparable a b → a = b))
    ⟨fun ⟨h, h', h''⟩ => ⟨h, h', h''⟩, fun ⟨h, h', h''⟩ => ⟨h, h', h''⟩⟩

/-- Every occurrence of a value begins inside a piece that is an occurrence of it. -/
def BeginsInOwn (key : β → α) (values : List (List α)) (pieces : List (Piece β)) : Prop :=
  ∀ v ∈ values, ∀ i, v <+: ((pieces.flatMap Piece.str).drop i).map key →
    ∃ bs, pieceAt pieces i = some (.secret bs) ∧ bs.map key = v

section
variable {key : β → α} {new : List β} {done : List (List α)} {v : List α}

theorem Piece.after_secret {bs : List β} :
    (Piece.secret bs).after key new done = if bs.map key ∈ done then new else bs := rfl

/-- A piece is as it was, or replaced. -/
theorem Piece.after_eq (p : Piece β) (key : β → α) (new : List β) (done : List (List α)) :
    p.after key new done = p.str ∨
      ∃ bs, p = .secret bs ∧ bs.map key ∈ done ∧ p.after key new done = new := by
  cases p with
  | plain b => exact .inl rfl
  | secret bs =>
    by_cases hmem : bs.map key ∈ done
    · exact .inr ⟨bs, rfl, hmem, if_pos hmem⟩
    · exact .inl (if_neg hmem)

omit [DecidableEq α] in
theorem Comparable.of_prefix_append {a b c : List α} (h : a <+: b ++ c) : Comparable a b :=
  List.prefix_or_prefix_of_prefix h (List.prefix_append b c)

theorem pieceAt_append (pre post : List (Piece β)) (k : Nat) :
    pieceAt (pre ++ post) ((pre.flatMap Piece.str).length + k) = pieceAt post k := by
  induction pre generalizing k with
  | nil => simp
  | cons p pre ih =>
    rw [List.cons_append, pieceAt, List.flatMap_cons, List.length_append, if_neg (by omega)]
    rw [← ih k]
    congr 1
    omega

/-- Where a piece of another value is replaced, the value never overlaps what replaces it. -/
def ApartInside (key : β → α) (new : List β) (v : List α) (pieces : List (Piece β)) : Prop :=
  ∀ bs, Piece.secret bs ∈ pieces → bs.map key ≠ v → Apart v (new.map key)

/-- An occurrence that begins before a replacement does not reach it. -/
theorem prefix_of_after {x : List β} {pieces : List (Piece β)} (hx : x ≠ []) (hdone : v ∉ done)
    (hv : ApartInside key new v pieces)
    (h : v <+: (x ++ pieces.flatMap (Piece.after key new done)).map key) :
    v <+: (x ++ pieces.flatMap Piece.str).map key := by
  induction pieces generalizing x with
  | nil => exact h
  | cons p pieces ih =>
    rw [List.flatMap_cons, ← List.append_assoc] at h ⊢
    obtain hsame | ⟨bs, hbs, hmem, hnew⟩ := p.after_eq key new done
    · rw [hsame] at h
      exact ih (List.append_ne_nil_of_left_ne_nil hx _) (fun bs hbs => hv bs (List.mem_cons_of_mem p hbs)) h
    · have hapart := hv bs (hbs ▸ List.mem_cons_self ..) fun heq => hdone (heq ▸ hmem)
      rw [hnew, List.append_assoc, List.map_append] at h
      by_cases hshort : v.length ≤ x.length
      · have hfits : v <+: x.map key :=
          List.prefix_of_prefix_length_le h (List.prefix_append ..) (by simpa using hshort)
        rw [List.append_assoc, List.map_append]
        exact hfits.trans (List.prefix_append ..)
      · have hrest : v.drop x.length <+: (new ++ pieces.flatMap (Piece.after key new done)).map key := by
          have hdrop := h.drop x.length
          rwa [List.drop_left' (by simp)] at hdrop
        rw [List.map_append] at hrest
        have hpos : 0 < x.length := List.length_pos_of_ne_nil hx
        exact absurd (Comparable.of_prefix_append hrest) (hapart.left x.length (by omega) hpos)

/-- Inside a replacement nothing is replaced, unless it is the value itself. -/
theorem replace_new {s : List β} (hne : v ≠ []) (hv : Apart v (new.map key)) :
    replace key v new (new ++ s) = new ++ replace key v new s := by
  by_cases hsame : v = new.map key
  · exact replace_append hsame.symm hne
  · refine replace_append_of_no_match fun k hk hmatch => ?_
    rw [List.drop_append_of_le_length (Nat.le_of_lt hk), List.map_append, List.map_drop] at hmatch
    have hcomparable := Comparable.of_prefix_append hmatch
    rcases Nat.eq_zero_or_pos k with rfl | hpos
    · exact hsame (hv.same hcomparable)
    · exact hv.right k (by simpa using hk) hpos hcomparable

/-- The scan for a value replaces its own pieces and nothing else. -/
theorem replace_after {values : List (List α)} {pieces : List (Piece β)} (hmem : v ∈ values)
    (hne : v ≠ []) (hdone : v ∉ done) (hv : ApartInside key new v pieces) (hbegins : BeginsInOwn key values pieces) :
    replace key v new (pieces.flatMap (Piece.after key new done)) =
      pieces.flatMap (Piece.after key new (v :: done)) := by
  suffices hpost : ∀ pre post, pieces = pre ++ post →
      replace key v new (post.flatMap (Piece.after key new done)) =
        post.flatMap (Piece.after key new (v :: done)) from hpost [] pieces rfl
  intro pre post
  induction post generalizing pre with
  | nil => exact fun _ => rfl
  | cons p post ih =>
    intro heq
    have hrest := ih (pre ++ [p]) (by simp [heq])
    have hlater : ApartInside key new v post := fun bs hbs => hv bs (by simp [heq, hbs])
    rw [List.flatMap_cons, List.flatMap_cons, ← hrest]
    -- An occurrence inside this piece is one of the original text.
    have hclear : ∀ k < p.str.length,
        v <+: ((p.str ++ post.flatMap (Piece.after key new done)).drop k).map key →
          ∃ bs, p = .secret bs ∧ bs.map key = v := by
      intro k hk hmatch
      rw [List.drop_append_of_le_length (Nat.le_of_lt hk)] at hmatch
      have htext := prefix_of_after (by simpa using hk) hdone hlater hmatch
      rw [← List.drop_append_of_le_length (Nat.le_of_lt hk)] at htext
      obtain ⟨bs, hpiece, hown⟩ := hbegins v hmem ((pre.flatMap Piece.str).length + k) (by
        rwa [heq, List.flatMap_append, List.flatMap_cons, List.drop_append, List.drop_eq_nil_of_le (by omega),
          List.nil_append, Nat.add_sub_cancel_left])
      rw [heq, pieceAt_append, pieceAt, if_pos hk] at hpiece
      exact ⟨bs, Option.some.inj hpiece, hown⟩
    cases p with
    | plain b =>
      refine replace_append_of_no_match fun k hk hmatch => ?_
      obtain ⟨bs, hsecret, -⟩ := hclear k hk hmatch
      cases hsecret
    | secret bs =>
      rw [Piece.after_secret, Piece.after_secret]
      by_cases hbs : bs.map key ∈ done
      · rw [if_pos hbs, if_pos (List.mem_cons_of_mem v hbs)]
        exact replace_new hne (hv bs (by simp [heq]) fun hown => hdone (hown ▸ hbs))
      · rw [if_neg hbs]
        by_cases hown : bs.map key = v
        · rw [if_pos (hown ▸ List.mem_cons_self ..)]
          exact replace_append hown hne
        · rw [if_neg (by simp [hown, hbs])]
          refine replace_append_of_no_match fun k hk hmatch => ?_
          obtain ⟨bs', hsecret, hown'⟩ := hclear k hk hmatch
          cases hsecret
          exact hown hown'

end

end Replacing
