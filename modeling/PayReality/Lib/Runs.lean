import PayReality.Lib.Reports

/-!
# Assumptions about the steps of a run

What holds in every world that is reached, and what every program sends, may be assumed of every step
of a run: the run is one of the machine that is restricted to such steps.
-/

namespace Program

variable {Q : Type} {A : Q → Type} {ε σ ι : Type} [DecidableEq ι] {M : Machine Q A ε σ ι}
  {starts : Set (Prog Q A ε Unit)} {init : σ → Prop} {w w' : World Q A ε σ ι}
  {c : ι → (q : Q) → σ → Except ε (A q) → Prop}

/-- A step of a machine, where every statement is sent as `c` says. -/
theorem Step.restrict (h : Step M starts w w')
    (hc : ∀ i q k r, w.running i = some (.call q k) → M.step i q w.store r w'.store →
      c i q w.store r) : Step (M.restrict c) starts w w' := by
  cases h with
  | start i p hp hn => exact .start i p hp hn
  | @call i q k r s hp hstep => exact .call i hp ⟨hstep, hc i q k r hp hstep⟩
  | returned i hp => exact .returned i hp
  | raised i hp => exact .raised i hp

/-- What holds in every store that is reached holds before every step. -/
theorem Reach.assuming {K : σ → Prop}
    (hK : ∀ w, Reach (M.restrict c) starts init w → K w.store)
    (h : Reach (M.restrict c) starts init w) :
    Reach (M.restrict fun i q s r => c i q s r ∧ K s) starts init w := by
  induction h with
  | init hi => exact .init hi
  | @step w _ hw hstep ih =>
    refine ih.step ?_
    cases hstep with
    | start i p hp hn => exact .start i p hp hn
    | call i hp hstep => exact .call i hp ⟨hstep.1, hstep.2, hK w hw⟩
    | returned i hp => exact .returned i hp
    | raised i hp => exact .raised i hp

/-- What the programs send is what the processes of a run send. -/
theorem Reach.sent {P : Q → Prop} (hs : ∀ p ∈ starts, Sends P (fun _ _ => True) p fun _ => True)
    (h : Reach M starts init w) : Reach (M.restrict fun _ q _ _ => P q) starts init w := by
  have hboth : Reach (M.restrict fun _ q _ _ => P q) starts init w ∧
      ∀ i p, w.running i = some p → Sends P (fun _ _ => True) p fun _ => True := by
    induction h with
    | init hi => exact ⟨.init hi, nofun⟩
    | @step w w' _ hstep ih =>
      obtain ⟨hw, hrunning⟩ := ih
      refine ⟨hw.step (hstep.restrict fun i q k r hp _ => (hrunning i _ hp).1), ?_⟩
      have hupdate : ∀ {i x j p}, Function.update w.running i x j = some p →
          x = some p ∨ w.running j = some p := by
        intro i x j p hp
        by_cases hj : j = i
        · subst hj
          rw [Function.update_self] at hp
          exact .inl hp
        · rw [Function.update_of_ne hj] at hp
          exact .inr hp
      intro j p hp
      cases hstep with
      | start i p' hp' hn =>
        rcases hupdate hp with heq | hp
        · cases heq
          exact hs p hp'
        · exact hrunning j p hp
      | @call i q k r s hp' _ =>
        rcases hupdate hp with heq | hp
        · cases heq
          exact (hrunning i _ hp').2 r trivial
        · exact hrunning j p hp
      | returned i hp' | raised i hp' =>
        rcases hupdate hp with heq | hp
        · cases heq
        · exact hrunning j p hp
  exact hboth.1

/-- A program that sends only what `P` allows, whatever is answered. -/
theorem sending_of_sends {α : Type} {p : Prog Q A ε α} {P' : Q → Prop}
    {P : Q → List (Answered Q A ε) → Prop} {R : α → List (Answered Q A ε) → Prop}
    {E : ε → List (Answered Q A ε) → Prop} {tr : List (Answered Q A ε)}
    (h : Sends P' (fun _ _ => True) p fun _ => True) (hP : ∀ q tr, P' q → P q tr)
    (hR : ∀ a tr', tr ⊆ tr' → R a tr') (hE : ∀ e tr', tr ⊆ tr' → E e tr') : Sending P p R E tr := by
  induction p generalizing tr with
  | ret a => exact hR a tr (List.Subset.refl _)
  | raise e => exact hE e tr (List.Subset.refl _)
  | call q k ih =>
    refine ⟨hP q tr h.1, fun r => ih r (h.2 r trivial) (fun a tr' htr => ?_) fun e tr' htr => ?_⟩
    · exact hR a tr' (List.Subset.trans (List.subset_append_left _ _) htr)
    · exact hE e tr' (List.Subset.trans (List.subset_append_left _ _) htr)

/-- What is true of every value and of every exception is true of the end of a program. -/
theorem sending_of_forall {α : Type} {p : Prog Q A ε α} {R : α → List (Answered Q A ε) → Prop}
    {E : ε → List (Answered Q A ε) → Prop} {tr : List (Answered Q A ε)} (hR : ∀ a tr, R a tr)
    (hE : ∀ e tr, E e tr) : Sending (fun _ _ => True) p R E tr := by
  induction p generalizing tr with
  | ret a => exact hR a tr
  | raise e => exact hE e tr
  | call q k ih => exact ⟨trivial, fun r => ih r⟩

end Program
