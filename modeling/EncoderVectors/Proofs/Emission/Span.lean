import Mathlib.Algebra.Ring.Nat
import EncoderVectors.Emission.Basic

/-!
# Spans laid end to end

Parts of a list, laid end to end, and the spans that they take up. The part of number `n` starts where
the parts before it end, and every position lies in exactly one part. So tiles are known by their
numbers (`Span.mem_tile_iff`), what stands at a position is known by the number of its part
(`getElem?_flatten_take`), and cutting the whole at its tiles gives the parts back
(`Span.map_cut_tile`).
-/

set_option autoImplicit false

namespace EncoderVectors

variable {α : Type}

/-! ## Positions in a list of parts -/

/-- A part stands between the parts before it and those after it. -/
theorem flatten_eq_take_append {parts : List (List α)} {n : Nat} {part : List α}
    (h : parts[n]? = some part) :
    parts.flatten = (parts.take n).flatten ++ (part ++ (parts.drop (n + 1)).flatten) := by
  obtain ⟨hn, rfl⟩ := List.getElem?_eq_some_iff.mp h
  rw [← List.flatten_cons, List.getElem_cons_drop, ← List.flatten_append, List.take_append_drop]

/-- The elements of a part stand after all elements of the parts before it. -/
theorem getElem?_flatten_take {parts : List (List α)} {n j : Nat} {part : List α}
    (h : parts[n]? = some part) (hj : j < part.length) :
    parts.flatten[((parts.take n).map List.length).sum + j]? = part[j]? := by
  rw [flatten_eq_take_append h, ← List.length_flatten, List.getElem?_append_right (Nat.le_add_right _ _),
    Nat.add_sub_cancel_left, List.getElem?_append_left hj]

/-- Every position lies in some part. -/
theorem exists_part {parts : List (List α)} {p : Nat} (h : p < parts.flatten.length) :
    ∃ n j part, parts[n]? = some part ∧ j < part.length ∧
      p = ((parts.take n).map List.length).sum + j := by
  induction parts generalizing p with
  | nil => simp at h
  | cons part parts ih =>
      -- the position lies in the first part, or as far into the others as the first part is long
      by_cases inside : p < part.length
      · exact ⟨0, p, part, rfl, inside, by simp⟩
      · have rest : p - part.length < parts.flatten.length := by
          rw [List.flatten_cons, List.length_append] at h
          omega
        obtain ⟨n, j, other, found, hj, position⟩ := ih rest
        refine ⟨n + 1, j, other, found, hj, ?_⟩
        rw [List.take_succ_cons, List.map_cons, List.sum_cons]
        omega

/-! ## Tiles -/

namespace Span

/-- Spans that follow one another without a gap from `low` to `high`. -/
def Tiles : Nat → List Span → Nat → Prop
  | low, [], high => low = high
  | low, s :: rest, high => s.start = low ∧ low ≤ s.stop ∧ Tiles s.stop rest high

/-- What of a list stands in a span. -/
def cut (s : Span) (l : List α) : List α :=
  (l.drop s.start).take s.size

theorem tiles_tile (start : Nat) (sizes : List Nat) :
    Tiles start (tile start sizes) (start + sizes.sum) := by
  induction sizes generalizing start with
  | nil => rfl
  | cons n sizes ih =>
      refine ⟨rfl, Nat.le_add_right _ _, ?_⟩
      rw [List.sum_cons, ← Nat.add_assoc]
      exact ih (start + n)

theorem length_tile (start : Nat) (sizes : List Nat) :
    (tile start sizes).length = sizes.length := by
  induction sizes generalizing start with
  | nil => rfl
  | cons n sizes ih => exact congrArg (· + 1) (ih (start + n))

theorem map_size_tile (start : Nat) (sizes : List Nat) :
    (tile start sizes).map size = sizes := by
  induction sizes generalizing start with
  | nil => rfl
  | cons n sizes ih =>
      rw [tile, List.map_cons, ih, size, Nat.add_sub_cancel_left]

/-- A tile is known by its number: it starts where the tiles before it end. -/
theorem mem_tile_iff {s : Span} {start : Nat} {sizes : List Nat} :
    s ∈ tile start sizes ↔ ∃ n size, sizes[n]? = some size ∧
      s = ⟨start + (sizes.take n).sum, start + (sizes.take n).sum + size⟩ := by
  induction sizes generalizing start with
  | nil => simp [tile]
  | cons m sizes ih =>
      rw [tile, List.mem_cons, ih]
      constructor
      · rintro (rfl | ⟨n, size, found, rfl⟩)
        · exact ⟨0, m, rfl, by simp⟩
        · exact ⟨n + 1, size, found, by simp [Nat.add_assoc]⟩
      · rintro ⟨n, size, found, rfl⟩
        cases n with
        | zero =>
            left
            simp only [List.getElem?_cons_zero, Option.some.injEq] at found
            simp [found]
        | succ n => exact Or.inr ⟨n, size, found, by simp [Nat.add_assoc]⟩

/-- Tiles stand in order and do not overlap. -/
theorem pairwise_tile (start : Nat) (sizes : List Nat) :
    (tile start sizes).Pairwise fun a b => a.stop ≤ b.start := by
  induction sizes generalizing start with
  | nil => exact List.Pairwise.nil
  | cons n sizes ih =>
      refine List.Pairwise.cons ?_ (ih (start + n))
      intro b hb
      obtain ⟨k, size, -, rfl⟩ := mem_tile_iff.mp hb
      exact Nat.le_add_right _ _

/-- Spans that follow one another from `low` to `high` lie between the two. -/
theorem Tiles.bounds {low high : Nat} {spans : List Span} (h : Tiles low spans high) :
    low ≤ high ∧ ∀ s ∈ spans, s.start ≤ s.stop ∧ s.stop ≤ high := by
  induction spans generalizing low with
  | nil => exact ⟨Nat.le_of_eq h, by simp⟩
  | cons t spans ih =>
      obtain ⟨start, forward, rest⟩ := h
      obtain ⟨after, others⟩ := ih rest
      refine ⟨Nat.le_trans forward after, ?_⟩
      rw [List.forall_mem_cons, start]
      exact ⟨⟨forward, after⟩, others⟩

/-- Cutting at the span of a part gives the part. -/
theorem cut_flatten_take {parts : List (List α)} {n : Nat} {part : List α}
    (h : parts[n]? = some part) :
    cut ⟨((parts.take n).map List.length).sum,
      ((parts.take n).map List.length).sum + part.length⟩ parts.flatten = part := by
  rw [flatten_eq_take_append h, cut, size, ← List.length_flatten, List.drop_left, Nat.add_sub_cancel_left,
    List.take_left]

/-- Cutting the whole at its tiles gives the parts back. -/
theorem map_cut_tile (before : List α) (parts : List (List α)) :
    (tile before.length (parts.map List.length)).map (fun s => s.cut (before ++ parts.flatten)) =
      parts := by
  induction parts generalizing before with
  | nil => rfl
  | cons part parts ih =>
      -- the first part joins what stands before, and the tiles after it start where it ends
      have rest := ih (before ++ part)
      rw [List.length_append, List.append_assoc] at rest
      rw [List.map_cons, tile, List.map_cons, List.flatten_cons, rest]
      simp [cut, size]

end Span

end EncoderVectors
