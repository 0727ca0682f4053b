import Mathlib.Logic.Relation
import PayReality.Lib.Records

/-!
# What a transaction has read

A process remembers what it has read since its transaction began, and all of it are databases that
there have been since then.

* `Records.since`: the databases that there have been since an earlier store.
* `Schema.Leads`: the worlds that a world leads to.

**Main result** `Schema.Leads.recalls`.
-/

namespace Program

variable {D W N ε ι : Type}

/-- The databases that there have been, the present one last. -/
def Records.history (s : Records D ι) : List D := s.past ++ [s.db]

/-- Those that there have been since the store was `s₀`. -/
def Records.since (s₀ s : Records D ι) : List D := s.history.drop s₀.past.length

/-- The store comes after `s₀`, and what process `i` remembers it has read since. -/
structure Records.Recalls (i : ι) (s₀ s : Records D ι) : Prop where
  past : s₀.past.length ≤ s.past.length
  seen : ∀ d ∈ s.seen i, d ∈ s₀.since s

namespace Records

variable {s₀ s : Records D ι} {i : ι}

theorem Recalls.db_mem (h : s₀.Recalls i s) : s.db ∈ s₀.since s := by
  unfold since history
  rw [List.drop_append_of_le_length h.past]
  exact List.mem_append_right _ (List.mem_singleton_self s.db)

theorem Recalls.refl (h : s.seen i = []) : s.Recalls i s := by
  refine ⟨le_rfl, ?_⟩
  rw [h]
  simp

variable [DecidableEq ι] {j : ι}

theorem Recalls.see (h : s₀.Recalls i s) : s₀.Recalls i (s.see j) := by
  refine ⟨h.past, fun d hd => ?_⟩
  by_cases hj : i = j
  · subst hj
    rw [see_seen] at hd
    rcases List.mem_cons.1 hd with rfl | hd
    · exact h.db_mem
    · exact h.seen d hd
  · rw [show (s.see j).seen i = s.seen i from Function.update_of_ne hj _ _] at hd
    exact h.seen d hd

theorem Recalls.forget (h : s₀.Recalls i s) : s₀.Recalls i (s.forget j) := by
  refine ⟨h.past, fun d hd => ?_⟩
  by_cases hj : i = j
  · subst hj
    simp at hd
  · rw [show (s.forget j).seen i = s.seen i from Function.update_of_ne hj _ _] at hd
    exact h.seen d hd

theorem Recalls.write (h : s₀.Recalls i s) {d : D} : s₀.Recalls i (s.write j d) := by
  have hpast : s₀.past.length ≤ (s.write j d).past.length := by
    simp only [Records.write, List.length_append]
    have := h.past
    omega
  refine ⟨hpast, fun d' hd' => ?_⟩
  have hmem := h.forget.seen d' hd'
  unfold since history at hmem ⊢
  rw [List.drop_append_of_le_length hpast]
  exact List.mem_append_left _ hmem

/-- What one step leaves of it. -/
theorem Recalls.step {S : Schema D W ε} {q : RecordStatement W} {t : Records D ι}
    {r : Except ε (q.Answer D N)} (h : s₀.Recalls i s) (hstep : S.step j q s r t) :
    s₀.Recalls i t := by
  cases Schema.step_effect hstep with
  | unchanged ht => exact ht ▸ h
  | seen ht => exact ht ▸ h.see
  | forgotten ht => exact ht ▸ h.forget
  | changed w _ _ ht => exact ht ▸ h.write

end Records

/-- A world that comes after another one. -/
abbrev Schema.Leads [DecidableEq ι] (S : Schema D W ε) (N : Type)
    (c : ι → (q : RecordStatement W) → Records D ι → Except ε (q.Answer D N) → Prop)
    (starts : Set (RecordProg D W N ε Unit)) :
    World (RecordStatement W) (RecordStatement.Answer D N) ε (Records D ι) ι →
      World (RecordStatement W) (RecordStatement.Answer D N) ε (Records D ι) ι → Prop :=
  Relation.ReflTransGen (Step ((S.machine N ι).restrict c) starts)

section

variable [DecidableEq ι] {S : Schema D W ε}
  {c : ι → (q : RecordStatement W) → Records D ι → Except ε (q.Answer D N) → Prop}
  {starts : Set (RecordProg D W N ε Unit)}
  {w₀ w : World (RecordStatement W) (RecordStatement.Answer D N) ε (Records D ι) ι}

theorem Reach.leads {init : Records D ι → Prop} (h : Reach ((S.machine N ι).restrict c) starts init w₀)
    (hw : S.Leads N c starts w₀ w) : Reach ((S.machine N ι).restrict c) starts init w := by
  induction hw with
  | refl => exact h
  | tail _ hstep ih => exact ih.step hstep

/-- A world that is reached is led to from one where nothing runs. -/
theorem Reach.from_init {Q : Type} {A : Q → Type} {σ : Type} {M : Machine Q A ε σ ι}
    {starts : Set (Prog Q A ε Unit)} {init : σ → Prop} {w : World Q A ε σ ι}
    (h : Reach M starts init w) :
    ∃ s, init s ∧ Relation.ReflTransGen (Step M starts) ⟨s, fun _ => none⟩ w := by
  induction h with
  | @init s hs => exact ⟨s, hs, .refl⟩
  | step _ hstep ih =>
    obtain ⟨s, hs, hleads⟩ := ih
    exact ⟨s, hs, hleads.tail hstep⟩

/-- **What a transaction has read** since it had read nothing. -/
theorem Schema.Leads.recalls (hw : S.Leads N c starts w₀ w) {i : ι} (hi : w₀.store.seen i = []) :
    w₀.store.Recalls i w.store := by
  induction hw with
  | refl => exact .refl hi
  | tail _ hstep ih =>
    cases hstep with
    | start i p hp hn => exact ih
    | call i hp hstep => exact ih.step hstep.1
    | returned i hp => exact ih
    | raised i hp => exact ih

/-- What a process is about to commit it has checked. -/
theorem Reach.supported (hs : ∀ p ∈ starts, Checks S p) {d₀ : D} (h₀ : S.admits d₀ = true)
    (h : Reach ((S.machine N ι).restrict c) starts (fun s => ∃ d ∈ ({d₀} : Set D), s = Records.init d) w)
    {i : ι} {q : RecordStatement W} {k : Except ε (q.Answer D N) → RecordProg D W N ε Unit}
    (hi : w.running i = some (.call q k)) {change : W} (hq : q.change? = some change) :
    S.supported change (w.store.seen i) := by
  have hsound := h.of_restrict.sound (L := S.logic N ι) (fun p hp => (hs p hp).keeps) ?_
  · have hlocal := hsound.2 i
    simp only [Logic.local, hi] at hlocal
    exact (hlocal _ ((S.logic N ι).rely_refl _ _) hsound.1).1 change hq
  · rintro s ⟨d, rfl, rfl⟩
    exact ⟨h₀, fun i => rfl⟩

end

end Program
