import PayReality.Lib.Reports

/-!
# Programs that nobody notices

Some programs of a run change nothing that a view of the store shows, and the others act on the view as
they act on the store. Then the run without the first ones is a run, of the same programs on the view.

* `Prog.quiet`: a program that reports nothing, beside others that report.

**Main results** `Reach.erase`, and `Erases.reporting`: what is reported is seen as it is.
-/

namespace Program

variable {Q : Type} {A : Q → Type} {ε σ τ ι ρ : Type}

/-- Every statement of the program satisfies `P`, whatever is answered. -/
abbrev SendsOnly {α : Type} (P : Q → Prop) (p : Prog Q A ε α) : Prop :=
  Sends P (fun _ _ => True) p fun _ => True

/-- What `M` does on a store, `N` does on its view, for the statements that are `seen`; those that are
`unseen` leave the view as it is. -/
structure Erases (M : Machine Q A ε σ ι) (N : Machine Q A ε τ ι) (I : σ → Prop) (f : σ → τ)
    (seen unseen : Q → Prop) : Prop where
  keeps : ∀ {i q s r t}, I s → seen q ∨ unseen q → M.step i q s r t → I t
  acts : ∀ {i q s r t}, I s → seen q → M.step i q s r t → N.step i q (f s) r (f t)
  silent : ∀ {i q s r t}, I s → unseen q → M.step i q s r t → f t = f s

/-- The process of the view: it runs what the process of the store runs, or nothing in place of a program
that is not seen. -/
def Erased (seen unseen : Q → Prop) (p p' : Option (Prog Q A ε Unit)) : Prop :=
  (p' = p ∧ ∀ x, p = some x → SendsOnly seen x) ∨ (p' = none ∧ ∀ x, p = some x → SendsOnly unseen x)

variable [DecidableEq ι] {M : Machine Q A ε σ ι} {N : Machine Q A ε τ ι} {I : σ → Prop} {f : σ → τ}
  {seen unseen : Q → Prop} {starts hidden : Set (Prog Q A ε Unit)} {init : σ → Prop}
  {w w' : World Q A ε σ ι} {v : World Q A ε τ ι}

/-- The world of the view. -/
structure ErasedWorld (f : σ → τ) (seen unseen : Q → Prop) (w : World Q A ε σ ι)
    (v : World Q A ε τ ι) : Prop where
  store : v.store = f w.store
  running : ∀ i, Erased seen unseen (w.running i) (v.running i)

omit [DecidableEq ι] in
theorem erased_none : Erased seen unseen (none : Option (Prog Q A ε Unit)) none := .inl ⟨rfl, nofun⟩

/-- One process changes, in both worlds or in the first. -/
theorem erased_update {i : ι} {p p' : Option (Prog Q A ε Unit)}
    (h : ∀ j, Erased seen unseen (w.running j) (v.running j)) (hp : Erased seen unseen p p') :
    ∀ j, Erased seen unseen (Function.update w.running i p j) (Function.update v.running i p' j) := by
  intro j
  by_cases hj : j = i
  · subst hj
    rw [Function.update_self, Function.update_self]
    exact hp
  · rw [Function.update_of_ne hj, Function.update_of_ne hj]
    exact h j

/-- One step, which the view takes too or does not notice. -/
theorem Step.erase (herases : Erases M N I f seen unseen)
    (hs : ∀ p ∈ starts, SendsOnly seen p) (hh : ∀ p ∈ hidden, SendsOnly unseen p)
    (hI : I w.store) (h : ErasedWorld f seen unseen w v) (hstep : Step M (starts ∪ hidden) w w') :
    I w'.store ∧ ∃ v', ErasedWorld f seen unseen w' v' ∧ (v' = v ∨ Step N starts v v') := by
  -- a process that is not seen runs nothing in the view, and goes on doing so
  have hstay : ∀ {i p}, v.running i = none → Erased seen unseen p none → ∀ j,
      Erased seen unseen (Function.update w.running i p j) (v.running j) := by
    intro i p hv hp
    have hupdate := erased_update (i := i) h.running hp
    rwa [← hv, Function.update_eq_self] at hupdate
  cases hstep with
  | start i p hp hn =>
    have hnone : v.running i = none := by
      rcases h.running i with ⟨hsame, -⟩ | ⟨hnone, -⟩
      · rw [hsame, hn]
      · exact hnone
    rcases hp with hp | hp
    · refine ⟨hI, { v with running := Function.update v.running i (some p) }, ⟨h.store, ?_⟩,
        .inr (.start i p hp hnone)⟩
      exact erased_update h.running (.inl ⟨rfl, fun x hx => Option.some.inj hx ▸ hs p hp⟩)
    · refine ⟨hI, v, ⟨h.store, ?_⟩, .inl rfl⟩
      exact hstay hnone (.inr ⟨rfl, fun x hx => Option.some.inj hx ▸ hh p hp⟩)
  | @call i q k r s hp hstep =>
    rcases h.running i with ⟨hsame, hsends⟩ | ⟨hnone, hsends⟩
    · have hq := hsends _ hp
      refine ⟨herases.keeps hI (.inl hq.1) hstep, ⟨f s, Function.update v.running i (some (k r))⟩,
        ⟨rfl, ?_⟩, .inr (.call i (hsame.trans hp) ?_)⟩
      · exact erased_update h.running
          (.inl ⟨rfl, fun x hx => Option.some.inj hx ▸ hq.2 r trivial⟩)
      · rw [h.store]
        exact herases.acts hI hq.1 hstep
    · have hq := hsends _ hp
      refine ⟨herases.keeps hI (.inr hq.1) hstep, v, ⟨?_, ?_⟩, .inl rfl⟩
      · exact h.store.trans (herases.silent hI hq.1 hstep).symm
      · exact hstay hnone (.inr ⟨rfl, fun x hx => Option.some.inj hx ▸ hq.2 r trivial⟩)
  | returned i hp =>
    rcases h.running i with ⟨hsame, -⟩ | ⟨hnone, -⟩
    · exact ⟨hI, { v with running := Function.update v.running i none },
        ⟨h.store, erased_update h.running erased_none⟩, .inr (.returned i (hsame.trans hp))⟩
    · exact ⟨hI, v, ⟨h.store, hstay hnone erased_none⟩, .inl rfl⟩
  | raised i hp =>
    rcases h.running i with ⟨hsame, -⟩ | ⟨hnone, -⟩
    · exact ⟨hI, { v with running := Function.update v.running i none },
        ⟨h.store, erased_update h.running erased_none⟩, .inr (.raised i (hsame.trans hp))⟩
    · exact ⟨hI, v, ⟨h.store, hstay hnone erased_none⟩, .inl rfl⟩

/-- **The run without the programs that are not seen is a run of the others**, and ends in the view. -/
theorem Reach.erase (herases : Erases M N I f seen unseen)
    (hs : ∀ p ∈ starts, SendsOnly seen p) (hh : ∀ p ∈ hidden, SendsOnly unseen p)
    (hinit : ∀ s, init s → I s) (h : Reach M (starts ∪ hidden) init w) :
    I w.store ∧ ∃ v, Reach N starts (fun t => ∃ s, init s ∧ t = f s) v ∧
      ErasedWorld f seen unseen w v := by
  induction h with
  | @init s hi => exact ⟨hinit s hi, _, .init ⟨s, hi, rfl⟩, rfl, fun _ => erased_none⟩
  | step _ hstep ih =>
    obtain ⟨hI, v, hv, hworld⟩ := ih
    obtain ⟨hI', v', hworld', rfl | hstep'⟩ := hstep.erase herases hs hh hI hworld
    · exact ⟨hI', _, hv, hworld'⟩
    · exact ⟨hI', v', hv.step hstep', hworld'⟩

/-! ## Reports -/

/-- The program, which reports nothing. -/
def Prog.quiet {α : Type} : Prog Q A ε α → Prog (Q ⊕ ρ) (ReportAnswer A ρ) ε α
  | .ret a => .ret a
  | .raise e => .raise e
  | .call q k => .call (.inl q) fun r => (k r).quiet

/-- The statements of the machine, and reports. -/
abbrev orReport (P : Q → Prop) : Q ⊕ ρ → Prop := Sum.elim P fun _ => True

abbrev noReport (P : Q → Prop) : Q ⊕ ρ → Prop := Sum.elim P fun _ => False

theorem sendsOnly_reported {α : Type} {P : Q → Prop} {p : Prog Q A ε α} {mk : Except ε α → ρ}
    (h : SendsOnly P p) : SendsOnly (orReport P) (p.reported mk) := by
  induction p with
  | ret a => exact ⟨trivial, fun _ _ => trivial⟩
  | raise e => exact ⟨trivial, fun _ _ => trivial⟩
  | call q k ih => exact ⟨h.1, fun r hr => ih r (h.2 r hr)⟩

theorem sendsOnly_quiet {α : Type} {P : Q → Prop} {p : Prog Q A ε α} (h : SendsOnly P p) :
    SendsOnly (noReport P) (Prog.quiet (ρ := ρ) p) := by
  induction p with
  | ret a => trivial
  | raise e => trivial
  | call q k ih => exact ⟨h.1, fun r hr => ih r (h.2 r hr)⟩

/-- The view of a store with reports: of the traces, the statements that are shown. -/
def Reported.view (f : σ → τ) (shown : Q → Bool) (s : Reported Q A ε σ ι ρ) :
    Reported Q A ε τ ι ρ where
  store := f s.store
  trace i := (s.trace i).filter fun x => shown x.1
  reports := s.reports.map fun e => (e.1, e.2.filter fun x => shown x.1)

theorem Reported.view_sent {shown : Q → Bool} {s : Reported Q A ε σ ι ρ} {i : ι} {q : Q}
    {r : Except ε (A q)} {t : σ} : (s.sent i q r t).view f shown =
      if shown q then (s.view f shown).sent i q r (f t)
      else { s.view f shown with store := f t } := by
  have htrace : ((s.sent i q r t).view f shown).trace = if shown q then
      ((s.view f shown).sent i q r (f t)).trace else (s.view f shown).trace := by
    funext j
    by_cases hj : j = i
    · subst hj
      by_cases hq : shown q = true
      · simp [view, sent, hq]
      · simp [view, sent, hq]
    · have hne : ((s.sent i q r t).view f shown).trace j = (s.view f shown).trace j := by
        simp [view, sent_trace_of_ne hj]
      rw [hne]
      split
      · rw [sent_trace_of_ne hj]
      · rfl
  by_cases hq : shown q = true
  · rw [if_pos hq] at htrace ⊢
    exact congrArg (fun tr => (⟨f t, tr, _⟩ : Reported Q A ε τ ι ρ)) htrace
  · rw [if_neg hq] at htrace ⊢
    exact congrArg (fun tr => (⟨f t, tr, _⟩ : Reported Q A ε τ ι ρ)) htrace

theorem Reported.view_report {shown : Q → Bool} {s : Reported Q A ε σ ι ρ} {i : ι} {x : ρ} :
    (s.report i x).view f shown = (s.view f shown).report i x := by
  have htrace : ((s.report i x).view f shown).trace = ((s.view f shown).report i x).trace := by
    funext j
    by_cases hj : j = i
    · subst hj
      simp [view, report]
    · simp [view, report_trace_of_ne hj]
  have hreports : ((s.report i x).view f shown).reports = ((s.view f shown).report i x).reports := by
    simp [view, report]
  exact congrArg₂ (fun tr rs => (⟨f s.store, tr, rs⟩ : Reported Q A ε τ ι ρ)) htrace hreports

/-- What is seen is seen with its reports. -/
theorem Erases.reporting {shown : Q → Bool} (h : Erases M N I f seen unseen)
    (hseen : ∀ q, seen q → shown q = true) (hunseen : ∀ q, unseen q → shown q = false) :
    Erases (M.reporting ρ) (N.reporting ρ) (fun s => I s.store) (Reported.view f shown)
      (orReport seen) (noReport unseen) where
  keeps := by
    intro i q s r t hs hq hstep
    cases q with
    | inl q =>
      obtain ⟨u, hstep, rfl⟩ := hstep
      exact h.keeps hs hq hstep
    | inr x =>
      obtain ⟨-, rfl⟩ := hstep
      exact hs
  acts := by
    intro i q s r t hs hq hstep
    cases q with
    | inl q =>
      obtain ⟨u, hstep, rfl⟩ := hstep
      refine ⟨f u, h.acts hs hq hstep, ?_⟩
      rw [Reported.view_sent, if_pos (hseen q hq)]
    | inr x =>
      obtain ⟨hr, rfl⟩ := hstep
      exact ⟨hr, Reported.view_report⟩
  silent := by
    intro i q s r t hs hq hstep
    cases q with
    | inl q =>
      obtain ⟨u, hstep, rfl⟩ := hstep
      rw [Reported.view_sent, if_neg (by simp [hunseen q hq]), h.silent hs hq hstep]
      rfl
    | inr x => exact hq.elim

end Program
