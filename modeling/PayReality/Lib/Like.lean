import Mathlib.Data.List.Basic
import Mathlib.Data.List.Infix
import Mathlib.Tactic.Tauto

/-!
# SQL `LIKE` patterns

In a pattern `%` stands for any text, `_` for any character, and `\` takes the next character literally. A
pattern that ends in `\` is not well formed: it matches nothing, and where a text gets as far as its end
the database raises (`refuses`).

* `like_plain`: a pattern without these characters matches itself only.
* `like_special`: a pattern with one of them matches another text, or nothing at all.
-/

namespace Like

inductive Part where
  | many
  | one
  | char (c : Char)

/-- The parts of a pattern. -/
def parse : List Char → Option (List Part)
  | [] => some []
  | '%' :: p => (parse p).map (.many :: ·)
  | '_' :: p => (parse p).map (.one :: ·)
  | ['\\'] => none
  | '\\' :: c :: p => (parse p).map (.char c :: ·)
  | c :: p => (parse p).map (.char c :: ·)

def fits : List Part → List Char → Bool
  | [], s => s.isEmpty
  | .many :: p, s => s.tails.any (fits p)
  | .one :: _, [] => false
  | .one :: p, _ :: s => fits p s
  | .char _ :: _, [] => false
  | .char c :: p, d :: s => c = d && fits p s

/-- `s LIKE p`. -/
def like (s p : List Char) : Bool := (parse p).any fun parts => fits parts s

/-- The text reaches a `\` that ends the pattern. -/
def refuses : List Char → List Char → Bool
  | [], _ => false
  | '%' :: p, s => s.tails.any (refuses p)
  | '_' :: p, s => !s.isEmpty && refuses p s.tail
  | ['\\'], s => !s.isEmpty
  | '\\' :: c :: p, s => s.head? = some c && refuses p s.tail
  | c :: p, s => s.head? = some c && refuses p s.tail

def isSpecial (c : Char) : Bool := c = '%' || c = '_' || c = '\\'

theorem parse_plain {p : List Char} (h : ∀ c ∈ p, isSpecial c = false) :
    parse p = some (p.map .char) := by
  induction p with
  | nil => rfl
  | cons c p ih =>
    have hc := h c (by simp)
    simp only [isSpecial, Bool.or_eq_false_iff, decide_eq_false_iff_not] at hc
    have hp := ih fun d hd => h d (by simp [hd])
    unfold parse
    split <;> simp_all

theorem fits_char (p s : List Char) : fits (p.map .char) s = true ↔ s = p := by
  induction p generalizing s with
  | nil => simp [fits]
  | cons c p ih =>
    cases s with
    | nil => simp [fits]
    | cons d s =>
      simp only [List.map_cons, fits, Bool.and_eq_true, decide_eq_true_eq, ih, List.cons.injEq]
      constructor
      · intro h
        exact ⟨h.1.symm, h.2⟩
      · intro h
        exact ⟨h.1.symm, h.2⟩

/-- **A pattern without special characters matches itself only.** -/
theorem like_plain {p s : List Char} (h : ∀ c ∈ p, isSpecial c = false) :
    like s p = true ↔ s = p := by
  simp [like, parse_plain h, fits_char]

theorem refuses_plain {p : List Char} (h : ∀ c ∈ p, isSpecial c = false) (s : List Char) :
    refuses p s = false := by
  induction p generalizing s with
  | nil => rfl
  | cons c p ih =>
    have hc := h c (by simp)
    simp only [isSpecial, Bool.or_eq_false_iff, decide_eq_false_iff_not] at hc
    have hp := ih fun d hd => h d (by simp [hd])
    unfold refuses
    split <;> simp_all

/-- A text that fits: nothing for `%`, and a `%` for `_`. -/
def fill : List Part → List Char
  | [] => []
  | .many :: p => fill p
  | .one :: p => '%' :: fill p
  | .char c :: p => c :: fill p

theorem fits_fill (p : List Part) : fits p (fill p) = true := by
  induction p with
  | nil => rfl
  | cons part p ih =>
    cases part with
    | many =>
      show (fill p).tails.any (fits p) = true
      exact List.any_eq_true.2 ⟨fill p, (List.mem_tails _ _).2 List.suffix_rfl, ih⟩
    | one => exact ih
    | char c => simpa [fits, fill] using ih

theorem fill_length_le {p : List Char} {parts : List Part} (h : parse p = some parts) :
    (fill parts).length ≤ p.length := by
  induction p using parse.induct generalizing parts with
  | case1 =>
    simp only [parse, Option.some.injEq] at h
    simp [← h, fill]
  | case2 p ih =>
    simp only [parse, Option.map_eq_some_iff] at h
    obtain ⟨rest, hrest, rfl⟩ := h
    have := ih hrest
    simp only [fill, List.length_cons]
    omega
  | case3 p ih =>
    simp only [parse, Option.map_eq_some_iff] at h
    obtain ⟨rest, hrest, rfl⟩ := h
    have := ih hrest
    simp only [fill, List.length_cons]
    omega
  | case4 => simp [parse] at h
  | case5 c p ih =>
    simp only [parse, Option.map_eq_some_iff] at h
    obtain ⟨rest, hrest, rfl⟩ := h
    have := ih hrest
    simp only [fill, List.length_cons]
    omega
  | case6 c p h1 h2 h3 h4 ih =>
    rw [parse] at h
    · obtain ⟨rest, hrest, rfl⟩ := Option.map_eq_some_iff.1 h
      have := ih hrest
      simp only [fill, List.length_cons]
      omega
    all_goals assumption

/-- The text that fits is the pattern only where that has no special character. -/
theorem plain_of_fill {p : List Char} {parts : List Part} (h : parse p = some parts)
    (hfill : fill parts = p) : ∀ c ∈ p, isSpecial c = false := by
  induction p using parse.induct generalizing parts with
  | case1 => simp
  | case2 p _ =>
    simp only [parse, Option.map_eq_some_iff] at h
    obtain ⟨rest, hrest, rfl⟩ := h
    have hlength := congrArg List.length hfill
    have := fill_length_le hrest
    simp only [fill, List.length_cons] at hlength
    omega
  | case3 p _ =>
    simp only [parse, Option.map_eq_some_iff] at h
    obtain ⟨rest, -, rfl⟩ := h
    simp [fill] at hfill
  | case4 => simp [parse] at h
  | case5 c p _ =>
    simp only [parse, Option.map_eq_some_iff] at h
    obtain ⟨rest, hrest, rfl⟩ := h
    have hlength := congrArg List.length hfill
    have := fill_length_le hrest
    simp only [fill, List.length_cons] at hlength
    omega
  | case6 c p hmany hone hend hescape ih =>
    have hplain : isSpecial c = false := by
      have hback : c ≠ '\\' := by
        intro hc
        cases p with
        | nil => exact hend hc rfl
        | cons d p => exact hescape d p hc rfl
      simp only [isSpecial, Bool.or_eq_false_iff, decide_eq_false_iff_not]
      exact ⟨⟨hmany, hone⟩, hback⟩
    rw [parse] at h
    · obtain ⟨rest, hrest, rfl⟩ := Option.map_eq_some_iff.1 h
      have hrest' : fill rest = p := by simpa [fill] using hfill
      intro d hd
      obtain heq | hmem := List.mem_cons.1 hd
      · rw [heq, hplain]
      · exact ih hrest hrest' d hmem
    all_goals assumption

theorem mem_fill {p : List Char} {parts : List Part} (h : parse p = some parts) :
    ∀ c ∈ fill parts, c = '%' ∨ c ∈ p := by
  induction p using parse.induct generalizing parts with
  | case1 =>
    simp only [parse, Option.some.injEq] at h
    simp [← h, fill]
  | case2 p ih =>
    simp only [parse, Option.map_eq_some_iff] at h
    obtain ⟨rest, hrest, rfl⟩ := h
    intro c hc
    exact (ih hrest c hc).imp_right fun hmem => by simp [hmem]
  | case3 p ih =>
    simp only [parse, Option.map_eq_some_iff] at h
    obtain ⟨rest, hrest, rfl⟩ := h
    intro c hc
    obtain heq | hmem := List.mem_cons.1 hc
    · exact .inl heq
    · exact (ih hrest c hmem).imp_right fun hmem => by simp [hmem]
  | case4 => simp [parse] at h
  | case5 d p ih =>
    simp only [parse, Option.map_eq_some_iff] at h
    obtain ⟨rest, hrest, rfl⟩ := h
    intro c hc
    obtain heq | hmem := List.mem_cons.1 hc
    · exact .inr (by simp [heq])
    · exact (ih hrest c hmem).imp_right fun hmem => by simp [hmem]
  | case6 d p hmany hone hend hescape ih =>
    rw [parse] at h
    · obtain ⟨rest, hrest, rfl⟩ := Option.map_eq_some_iff.1 h
      intro c hc
      obtain heq | hmem := List.mem_cons.1 hc
      · exact .inr (by simp [heq])
      · exact (ih hrest c hmem).imp_right fun hmem => by simp [hmem]
    all_goals assumption

/-- **A pattern with a special character** matches another text, made of its characters and of `%`, or it
matches nothing at all. -/
theorem like_special {p : List Char} (h : ∃ c ∈ p, isSpecial c = true) :
    (∃ s, s ≠ p ∧ (∀ c ∈ s, c = '%' ∨ c ∈ p) ∧ like s p = true) ∨ ∀ s, like s p = false := by
  cases hparse : parse p with
  | none => exact .inr fun s => by simp [like, hparse]
  | some parts =>
    refine .inl ⟨fill parts, ?_, mem_fill hparse, by simp [like, hparse, fits_fill]⟩
    intro hfill
    obtain ⟨c, hc, hspecial⟩ := h
    simp [plain_of_fill hparse hfill c hc] at hspecial

end Like
